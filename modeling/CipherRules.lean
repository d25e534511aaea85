import CipherRules.Catalog.Builtin
import CipherRules.Command.Run
import CipherRules.Main
import CipherRules.Proofs.Catalog.Index
import CipherRules.Proofs.Catalog.Names
import CipherRules.Proofs.Catalog.Part
import CipherRules.Proofs.Command.Check
import CipherRules.Proofs.Command.Explain
import CipherRules.Proofs.Policy.RoundTrip
import CipherRules.Proofs.Policy.Validity
import CipherRules.Proofs.Predicate.Attribute
import CipherRules.Proofs.Predicate.Depth
import CipherRules.Proofs.Predicate.Description
import CipherRules.Proofs.Predicate.Folding
import CipherRules.Proofs.Predicate.ReadOnce
import CipherRules.Proofs.RuleString.Clause
import CipherRules.Proofs.RuleString.Concatenation
import CipherRules.Proofs.RuleString.Directive
import CipherRules.Proofs.RuleString.Grammar
import CipherRules.Proofs.RuleString.Location
import CipherRules.Proofs.RuleString.OnePass
import CipherRules.Proofs.RuleString.Part
import CipherRules.Proofs.RuleString.Reading
import CipherRules.Proofs.RuleString.RoundTrip
import CipherRules.Proofs.RuleString.Spelling
import CipherRules.Proofs.RuleString.Unknown
import CipherRules.Proofs.RuleString.Validity
import CipherRules.Proofs.RuleString.Word
import CipherRules.Proofs.Selection.Alignment
import CipherRules.Proofs.Selection.Class
import CipherRules.Proofs.Selection.Concatenation
import CipherRules.Proofs.Selection.Default
import CipherRules.Proofs.Selection.Deletion
import CipherRules.Proofs.Selection.Membership
import CipherRules.Proofs.Selection.Outcome
import CipherRules.Proofs.Selection.Query
import CipherRules.Proofs.Selection.Redundancy
import CipherRules.Proofs.Selection.Report
import CipherRules.Proofs.Selection.Restriction
import CipherRules.Proofs.Selection.RoundTrip
import CipherRules.Proofs.Selection.RuleString
import CipherRules.Proofs.Selection.Spelling
import CipherRules.Proofs.Text
import CipherRules.Proofs.Text.Escape
import CipherRules.Proofs.Toml.Document
import CipherRules.Proofs.Toml.Quoted
import CipherRules.Proofs.WorkingSet.Access
import CipherRules.Proofs.WorkingSet.Choice
import CipherRules.Proofs.WorkingSet.Coherent
import CipherRules.Proofs.WorkingSet.Deletion
import CipherRules.Proofs.WorkingSet.Flags
import CipherRules.Proofs.WorkingSet.Idle
import CipherRules.Proofs.WorkingSet.Priority
import CipherRules.Proofs.WorkingSet.Redundancy
import CipherRules.Proofs.Yaml.Block
import CipherRules.Proofs.Yaml.Document
import CipherRules.Proofs.Yaml.Flow
import CipherRules.Proofs.Yaml.Reading
import CipherRules.Proofs.Yaml.Style
import CipherRules.Selection.Builder
