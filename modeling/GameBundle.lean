import GameBundle.Bundle.Index
import GameBundle.Main
import GameBundle.Proofs.Build.DialogKeys
import GameBundle.Proofs.Build.InRange
import GameBundle.Proofs.Build.Reentry
import GameBundle.Proofs.Build.ScriptLists
import GameBundle.Proofs.Build.ScriptNumbers
import GameBundle.Proofs.Build.Termination
import GameBundle.Proofs.Bundle.RoundTrip
import GameBundle.Proofs.Build.Additions
import GameBundle.Proofs.Build.Unchanged
import GameBundle.Proofs.Build.Pools
import GameBundle.Proofs.Build.SideBySide
import GameBundle.Proofs.Properties
import GameBundle.Proofs.Build.ScriptsSideBySide
import GameBundle.Proofs.Build.MapsSideBySide
import GameBundle.Proofs.Build.MoreMaps
import GameBundle.Proofs.Script.Copies
import GameBundle.Proofs.Build.UnusedScript
import GameBundle.Proofs.Text.Tokens
import GameBundle.Proofs.Build.VariableNames
import GameBundle.Proofs.Build.Linked
import GameBundle.Proofs.Build.Variables
import GameBundle.Proofs.Build.TileIds
import GameBundle.Proofs.Build.Pictures
import GameBundle.Proofs.Bundle.Corruption
import GameBundle.Proofs.Bundle.SafeReading
import GameBundle.Proofs.Build.Holes
import GameBundle.Proofs.Build.Portraits
import GameBundle.Proofs.Script.Inlining
import GameBundle.Proofs.Build.Rasters
import GameBundle.Proofs.Build.ObjectNumbers
import GameBundle.Proofs.Build.MapRules
import GameBundle.Proofs.Picture.Regrouping
import GameBundle.Proofs.Text.Templates
import GameBundle.Proofs.Record.Contents
import GameBundle.Proofs.Build.MapReader
import GameBundle.Proofs.Build.UnknownActions
import GameBundle.Proofs.Build.Inheritance
import GameBundle.Proofs.Build.EntityFields
import GameBundle.Proofs.Build.Paths
import GameBundle.Proofs.Build.BundledDialogs
import GameBundle.Proofs.Picture.Transparency
import GameBundle.Proofs.Build.Facing
import GameBundle.Proofs.Build.TilesetSizes
import GameBundle.Proofs.Build.Speakers
import GameBundle.Proofs.Shape.Records
import GameBundle.Proofs.Build.TilesetRecords
import GameBundle.Proofs.Build.TileReferences
import GameBundle.Proofs.Project.Merging
import GameBundle.Proofs.Color
import GameBundle.Proofs.Record.Frame
import GameBundle.Proofs.Picture.Limits
import GameBundle.Proofs.Build.LocalNumbers
