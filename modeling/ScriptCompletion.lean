import ScriptCompletion.Main
import ScriptCompletion.Proofs.AccountedTokens
import ScriptCompletion.Proofs.AliasCoherence
import ScriptCompletion.Proofs.BalancedScopes
import ScriptCompletion.Proofs.CharacterPlaces
import ScriptCompletion.Proofs.ConcurrentLoading
import ScriptCompletion.Proofs.FailureIsolation
import ScriptCompletion.Proofs.FaithfulTrees
import ScriptCompletion.Proofs.ForcedInvalidation
import ScriptCompletion.Proofs.ForwardReferences
import ScriptCompletion.Proofs.ForwardVisibility
import ScriptCompletion.Proofs.InsertionOrder
import ScriptCompletion.Proofs.LastRequestWins
import ScriptCompletion.Proofs.LexicalScopes
import ScriptCompletion.Proofs.LineComposition
import ScriptCompletion.Proofs.LineLocality
import ScriptCompletion.Proofs.LosslessLexing
import ScriptCompletion.Proofs.OfferedCommands
import ScriptCompletion.Proofs.RepeatedLookups
import ScriptCompletion.Proofs.ReplacedWord
import ScriptCompletion.Proofs.ScheduledPasses
import ScriptCompletion.Proofs.ScopeDepth
import ScriptCompletion.Proofs.ScopeMerging
import ScriptCompletion.Proofs.ScopeStack
import ScriptCompletion.Proofs.ScriptGrammar
import ScriptCompletion.Proofs.StandardCommands
import ScriptCompletion.Proofs.StringDelimiters
import ScriptCompletion.Proofs.SuggestionLists
import ScriptCompletion.Proofs.TypedArguments
import ScriptCompletion.Proofs.UsableVariables
import ScriptCompletion.Proofs.WalkReport
