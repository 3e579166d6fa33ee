import Graft.Unicode.Alphabetic
import Graft.Unicode.DefaultIgnorable
import Graft.Unicode.GraphemeExtend
import Graft.Unicode.Numeric
import Graft.Unicode.Unprintable
import Graft.Unicode.WhiteSpace
import Graft.Text.Quoted
import Graft.Numeric.Layout
import Graft.Numeric.Literal
import Graft.Json.Basic
import Graft.Json.Equality
import Graft.Json.Printer
import Graft.Json.Reader
import Graft.Path.Error
import Graft.Path.NumberKey
import Graft.Path.Printer
import Graft.Path.Reader
import Graft.Tree.Draft
import Graft.Tree.Walk
import Graft.Rule.Choices
import Graft.Rule.Value
import Graft.Mapping.Basic
import Graft.Document.Basic
import Graft.Document.Build
import Graft.Proofs.Numeric.Whole
import Graft.Proofs.Path.Characters
import Graft.Proofs.Path.Position
import Graft.Proofs.Path.Quoted
import Graft.Proofs.Path.RoundTrip
import Graft.Proofs.Tree.Agreement
import Graft.Proofs.Tree.Store
import Graft.Proofs.Tree.Draft
import Graft.Proofs.Tree.Finish
import Graft.Proofs.Mapping.Run
import Graft.Proofs.Mapping.History
import Graft.Proofs.Tree.Regular
import Graft.Proofs.Tree.Children
import Graft.Proofs.Tree.Fates
import Graft.Proofs.Tree.Settling
import Graft.Proofs.Mapping.Identity
import Graft.Proofs.Json.Rearranged
import Graft.Proofs.Tree.Compaction
import Graft.Proofs.Tree.Pruning
import Graft.Proofs.Tree.Beside
import Graft.Proofs.Mapping.Fresh
import Graft.Proofs.Tree.Entries
import Graft.Proofs.Tree.Growth
import Graft.Proofs.Tree.Copies
import Graft.Proofs.Mapping.Copying
import Graft.Proofs.Mapping.Flattening
import Graft.Proofs.Mapping.Edits
import Graft.Proofs.Path.Grammar
import Graft.Proofs.Path.Strings
import Graft.Proofs.Path.Numerals
import Graft.Proofs.Path.Acceptance
import Graft.Proofs.Tree.Origins
import Graft.Proofs.Mapping.Placements
import Graft.Proofs.Tree.Lowering
import Graft.Proofs.Mapping.Survival
import Graft.Proofs.Tree.Orders
import Graft.Proofs.Mapping.Reordering
import Graft.Proofs.Tree.DocumentOrder
import Graft.Proofs.Document.Building
import Graft.Proofs.Mapping.Treatment
import Graft.Proofs.Document.Meaning
import Graft.Proofs.Document.Reading
import Graft.Proofs.Mapping.Nesting
import Graft.Proofs.Json.Correspondence
import Graft.Proofs.Json.Rounding
import Graft.Proofs.Tree.Descent
import Graft.Proofs.Tree.Writing
import Graft.Proofs.Document.Faults
import Graft.Proofs.Numeric.WholeRounding
import Graft.Proofs.Tree.Remains
import Graft.Proofs.Path.WholeNumerals
import Graft.Proofs.Json.BestEffort
import Graft.Proofs.Json.NumberText
import Graft.Proofs.Mapping.NumberTargets
import Graft.Proofs.Path.Spelling
import Graft.Proofs.Path.Places
import Graft.Proofs.Mapping.Candidates
import Graft.Proofs.Tree.Trail
import Graft.Proofs.Mapping.Summary
import Graft.Proofs.Tree.Slots
import Graft.Proofs.Mapping.Vacancies
import Graft.Proofs.Path.PositionLiterals
import Graft.Proofs.Tree.Addresses
