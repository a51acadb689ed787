import FieldRules.Session
import FieldRules.Check.Ready
import FieldRules.Rule.Template
import FieldRules.Rule.Summary
import FieldRules.Proofs.Complaints
import FieldRules.Proofs.Findings
import FieldRules.Proofs.Presence
import FieldRules.Proofs.Tables
import FieldRules.Proofs.Locality
import FieldRules.Proofs.RuleOrder
import FieldRules.Proofs.Loading
import FieldRules.Proofs.RoundTrip
import FieldRules.Proofs.Counts
import FieldRules.Proofs.Grammar
import FieldRules.Proofs.Causes
import FieldRules.Proofs.Sizes
import FieldRules.Proofs.Reading
import FieldRules.Proofs.Answers
import FieldRules.Proofs.Calls
import FieldRules.Proofs.Clauses
import FieldRules.Proofs.Additions
import FieldRules.Proofs.Lines
import FieldRules.Proofs.Measures
import FieldRules.Proofs.Explanations
import FieldRules.Proofs.Rewordings
import FieldRules.Proofs.Addresses
import FieldRules.Proofs.Integers
import FieldRules.Proofs.Quotes
