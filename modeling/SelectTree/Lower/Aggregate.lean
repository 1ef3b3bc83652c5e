import SelectTree.Lower.Context

/-!
# Aggregate calls

The functions that can be called are the aggregates over all rows of a group: no window, no filter
and no order of the arguments.
-/

namespace SelectTree.Lower

open Query (Node AggregateFunction)

/-- A call of an aggregate function. -/
def aggregate (attributes : NodeAttributes) : Lower Node := do
  let name ← firstName attributes "funcname" .functionName
  match AggregateFunction.ofCallName? name with
  | none => fail (.unsupportedFunction name)
  | some function =>
    refuse (attributes.contains "over") (.unsupportedConstruct .windowFunction name)
    refuse (attributes.contains "agg_filter") (.unsupportedConstruct .aggregateFilter name)
    refuse (attributes.contains "agg_order") (.unsupportedConstruct .orderedAggregate name)
    refuse (← attributes.flag "agg_within_group") (.unsupportedConstruct .orderedAggregate name)
    let args ← if ← attributes.flag "agg_star" then pure [.star] else eachOf attributes "args"
    let distinct ← attributes.flag "agg_distinct"
    note (.aggregate function args.length)
    return .aggregate function args distinct

end SelectTree.Lower
