import PathOptions.Arguments
import PathOptions.CommandLine.Run
import PathOptions.Config.Context
import PathOptions.Main
import PathOptions.Resolve.File
import PathOptions.Proofs.Glob.Language
import PathOptions.Proofs.Glob.Regex
import PathOptions.Proofs.Glob.Translation
import PathOptions.Proofs.Brace.Denotation
import PathOptions.Proofs.Config.Transparency
import PathOptions.Proofs.Glob.Common
import PathOptions.Proofs.Glob.CommonSegments
import PathOptions.Proofs.Glob.Agreement
import PathOptions.Proofs.Brace.Iteration
import PathOptions.Proofs.Resolve.Values
import PathOptions.Proofs.Resolve.Locking
import PathOptions.Proofs.Resolve.Unfolding
import PathOptions.Proofs.Glob.Separators
import PathOptions.Proofs.Resolve.FixedDepth
import PathOptions.Proofs.Glob.Escaping
import PathOptions.Proofs.Path.Below
import PathOptions.Proofs.Resolve.Trees
import PathOptions.Proofs.Resolve.Unrelated
import PathOptions.Proofs.Brace.Candidates
import PathOptions.Proofs.Brace.Widening
import PathOptions.Proofs.Sequence.Numerals
import PathOptions.Proofs.Sequence.Expressions
import PathOptions.Proofs.Brace.Preservation
import PathOptions.Proofs.Resolve.Order
import PathOptions.Proofs.Resolve.Home
import PathOptions.Proofs.Resolve.OwnConfiguration
import PathOptions.Proofs.Resolve.References
import PathOptions.Proofs.Config.Readers
import PathOptions.Proofs.Config.OptionNames
import PathOptions.Proofs.Config.OptionSpellings
import PathOptions.Proofs.Config.UnknownKeys
import PathOptions.Proofs.Config.SettingsShape
import PathOptions.Proofs.CommandLine.Printing
import PathOptions.Proofs.CommandLine.AllOrNothing
import PathOptions.Proofs.Brace.Items
import PathOptions.Proofs.Table.Layout
import PathOptions.Proofs.Glob.Spelling
import PathOptions.Proofs.Glob.Brackets
import PathOptions.Proofs.Text.Replacement
import PathOptions.Proofs.Glob.PathnameComposition
