import SelectTree.Query.Equality
import SelectTree.Main
import SelectTree.Proofs.Attributes
import SelectTree.Proofs.Meter
import SelectTree.Proofs.Answer
import SelectTree.Proofs.FilterMeaning
import SelectTree.Proofs.FromClause
import SelectTree.Proofs.SessionReuse
import SelectTree.Proofs.Rules.Exact
import SelectTree.Proofs.Grammar.Exact
import SelectTree.Proofs.Occurrence
import SelectTree.Proofs.Rules.Session
import SelectTree.Proofs.Precedence
import SelectTree.Proofs.ComparedOperands
import SelectTree.Proofs.NestedSelect
import SelectTree.Proofs.StatementLayouts
import SelectTree.Proofs.WellFormed
import SelectTree.Proofs.Inventory
import SelectTree.Proofs.Reading
import SelectTree.Proofs.Elision
import SelectTree.Proofs.RenderedTexts
import SelectTree.Proofs.Blame
import SelectTree.Proofs.PrintedSelects
import SelectTree.Proofs.ClauseByClause
import SelectTree.Proofs.Contexts
import SelectTree.Proofs.Nesting
import SelectTree.Proofs.Notes
import SelectTree.Proofs.Log
import SelectTree.Proofs.CommandLine
import SelectTree.Proofs.SelectSteps
import SelectTree.Proofs.OrChains
