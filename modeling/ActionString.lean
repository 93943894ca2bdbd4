import ActionString.Main
import ActionString.Proofs.Blind
import ActionString.Proofs.BlindRules
import ActionString.Proofs.Canonical
import ActionString.Proofs.Consuming
import ActionString.Proofs.Crossing
import ActionString.Proofs.Diagnostics
import ActionString.Proofs.Entries
import ActionString.Proofs.Fields
import ActionString.Proofs.Furthest
import ActionString.Proofs.Isolation
import ActionString.Proofs.Labels
import ActionString.Proofs.Lenient
import ActionString.Proofs.MergedActions
import ActionString.Proofs.Misses
import ActionString.Proofs.OrderedMaps
import ActionString.Proofs.Pieces
import ActionString.Proofs.Records
import ActionString.Proofs.Reports
import ActionString.Proofs.Respelling
import ActionString.Proofs.Schema
import ActionString.Proofs.Segments
import ActionString.Proofs.Yields
import ActionString.Proofs.Survivors
import ActionString.Proofs.Heads
import ActionString.Proofs.Numerals
import ActionString.Proofs.Travel
import ActionString.Proofs.Animations
import ActionString.Proofs.Resolution
import ActionString.Proofs.BareWords
import ActionString.Proofs.Tags
import ActionString.Proofs.ColorNumbers
import ActionString.Proofs.Casing
import ActionString.Proofs.ColorTokens
import ActionString.Proofs.WrittenNumbers
import ActionString.Proofs.Locations
import ActionString.Proofs.NumberedLines
import ActionString.Proofs.ExpectedOrder
import ActionString.Proofs.Positions
import ActionString.Proofs.Vectors
import ActionString.Proofs.Worded
import ActionString.Proofs.Narrow
import ActionString.Proofs.Spacing
import ActionString.Proofs.Edits
import ActionString.Proofs.Precedence
import ActionString.Proofs.Nesting
import ActionString.Proofs.Loops
import ActionString.Proofs.Progress
import ActionString.Proofs.Places
import ActionString.Proofs.Settling
import ActionString.Proofs.Onward
import ActionString.Proofs.Leads
import ActionString.Proofs.Completion
import ActionString.Proofs.LastCommand
import ActionString.Proofs.CatchAll
import ActionString.Proofs.Endings
import ActionString.Proofs.Headed
import ActionString.Proofs.Named
import ActionString.Proofs.Destinations
import ActionString.Proofs.Worlds
import ActionString.Proofs.AnimationOptions
import ActionString.Proofs.AnimationParts
import ActionString.Proofs.Animating
import ActionString.Proofs.Viability
