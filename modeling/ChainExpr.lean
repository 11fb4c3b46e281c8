import ChainExpr.Stock
import ChainExpr.Config.Filter
import ChainExpr.Config.File
import ChainExpr.Config.Settings
import ChainExpr.Toml.Scalar
import ChainExpr.Toml.Quoted
import ChainExpr.Interpreter.Run
import ChainExpr.Interpreter.Chain
import ChainExpr.Evaluation.Task
import ChainExpr.Function.Registry
import ChainExpr.Evaluation.Event
import ChainExpr.Syntax.Document
import ChainExpr.Types.Standard
import ChainExpr.Types.Cast
import ChainExpr.Types.Document
import ChainExpr.Text.Alphanumeric
import ChainExpr.Text.Quoted
import ChainExpr.Table.Text
import ChainExpr.Value.Shown
import ChainExpr.Error
import ChainExpr.OrderedMap
import ChainExpr.Types.Name
import ChainExpr.Syntax.Node
import ChainExpr.Json.Tree
import ChainExpr.Json.Token
import ChainExpr.Json.Printer
import ChainExpr.Text.Blank
import ChainExpr.Number.Text
import ChainExpr.Proofs.CastSearch
import ChainExpr.Proofs.StandardCasts
import ChainExpr.Proofs.Recasting
import ChainExpr.Proofs.Policy
import ChainExpr.Proofs.Step
import ChainExpr.Proofs.Rounds
import ChainExpr.Proofs.Polling
import ChainExpr.Proofs.Composition
import ChainExpr.Proofs.Fitting
import ChainExpr.Proofs.Conduct
import ChainExpr.Proofs.Contracts
import ChainExpr.Proofs.HandOver
import ChainExpr.Proofs.Relay
import ChainExpr.Proofs.Related
import ChainExpr.Proofs.Likeness
import ChainExpr.Proofs.Homes
import ChainExpr.Proofs.View
import ChainExpr.Proofs.Portable
import ChainExpr.Proofs.Transparency
import ChainExpr.Proofs.Accounts
import ChainExpr.Proofs.Telling
import ChainExpr.Proofs.Abort
import ChainExpr.Proofs.Failures
import ChainExpr.Proofs.Warnings
import ChainExpr.Proofs.Alike
import ChainExpr.Proofs.Waits
import ChainExpr.Proofs.Sequential
import ChainExpr.Proofs.Settling
import ChainExpr.Proofs.Finishing
import ChainExpr.Proofs.Agreement
import ChainExpr.Proofs.Refinement
import ChainExpr.Proofs.Registrations
import ChainExpr.Proofs.WrittenOrder
import ChainExpr.Proofs.Folding
import ChainExpr.Proofs.Plan
import ChainExpr.Proofs.Story
import ChainExpr.Proofs.CallSites
import ChainExpr.Proofs.CalledOnce
import ChainExpr.Proofs.PlanRounds
import ChainExpr.Proofs.Timetable
import ChainExpr.Proofs.Timing
import ChainExpr.Proofs.Amid
import ChainExpr.Proofs.ArgumentCasts
import ChainExpr.Proofs.Resolution
import ChainExpr.Proofs.LinkStages
import ChainExpr.Proofs.Recursion
import ChainExpr.Proofs.Termination
import ChainExpr.Proofs.Holding
import ChainExpr.Proofs.Forwarding
import ChainExpr.Proofs.SettingAside
import ChainExpr.Proofs.Siblings
import ChainExpr.Proofs.Regrouping
import ChainExpr.Proofs.Renumbering
import ChainExpr.Proofs.OrderFree
import ChainExpr.Proofs.FoldedValues
import ChainExpr.Proofs.AcceptedContexts
import ChainExpr.Proofs.LeftoverAliases
import ChainExpr.Proofs.WireGrammar
import ChainExpr.Proofs.NearestNumber
import ChainExpr.Proofs.WireWriting
import ChainExpr.Proofs.FirstFault
import ChainExpr.Proofs.ValueEquality
import ChainExpr.Proofs.ShownNumbers
import ChainExpr.Proofs.Chronicles
import ChainExpr.Proofs.TracedLinks
import ChainExpr.Proofs.Attendance
import ChainExpr.Proofs.Meetings
import ChainExpr.Proofs.RepeatedNames
import ChainExpr.Proofs.DeclaredArguments
import ChainExpr.Proofs.PrintedNumerals
import ChainExpr.Proofs.PrintedDocuments
import ChainExpr.Proofs.StoredTables
