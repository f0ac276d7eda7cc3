import InputScript.Action.BuiltIn
import InputScript.Action.Clipboard
import InputScript.Action.Context
import InputScript.Action.Keyboard
import InputScript.Action.Mouse
import InputScript.Action.Request
import InputScript.Action.Scripted
import InputScript.Action.Window
import InputScript.Activity
import InputScript.Catalog.Hierarchy
import InputScript.Catalog.Memo
import InputScript.Catalog.Overload
import InputScript.Catalog.Registry
import InputScript.Catalog.Resolve
import InputScript.Catalog.Summary
import InputScript.Coercion
import InputScript.CommandLine.Command
import InputScript.CommandLine.Output
import InputScript.Device.Event
import InputScript.Device.Key
import InputScript.Dictionary
import InputScript.Log
import InputScript.Main
import InputScript.Number.Binary
import InputScript.Number.Literal
import InputScript.Number.Shortest
import InputScript.Outcome
import InputScript.Rehearsal.Machine
import InputScript.Rehearsal.Plan
import InputScript.Rehearsal.Stretch
import InputScript.Rehearsal.World
import InputScript.Run.Invoke
import InputScript.Run.Request
import InputScript.Run.State
import InputScript.Run.Walk
import InputScript.Script.Alias
import InputScript.Script.Arguments
import InputScript.Script.Line
import InputScript.Script.Parse
import InputScript.Script.Step
import InputScript.Session.Ledger
import InputScript.Session.Player
import InputScript.Session.Runner
import InputScript.Settings.Document
import InputScript.Settings.Interpolation
import InputScript.Settings.Manager
import InputScript.Settings.Reader
import InputScript.Text.Blank
import InputScript.Text.Digit
import InputScript.Text.Folding
import InputScript.Text.Printable
import InputScript.Text.Quoted
import InputScript.Text.Utf8
import InputScript.Value
import InputScript.Proofs.Exchange
import InputScript.Proofs.Interleaving
import InputScript.Proofs.Nap
import InputScript.Proofs.Stopping
import InputScript.Proofs.Cancellation
import InputScript.Proofs.FinalState
import InputScript.Proofs.Visit
import InputScript.Proofs.Reports
import InputScript.Proofs.Brackets
import InputScript.Proofs.RoundTrip
import InputScript.Proofs.Tokens
import InputScript.Proofs.Shorthand
import InputScript.Proofs.Turns
import InputScript.Proofs.Habit
import InputScript.Proofs.Regime
import InputScript.Proofs.Touches
import InputScript.Proofs.Solo
import InputScript.Proofs.Circumstances
import InputScript.Proofs.Echo
import InputScript.Proofs.Seclusion
import InputScript.Proofs.Rehearsals
import InputScript.Proofs.Folding
import InputScript.Proofs.Decimals
import InputScript.Proofs.Outline
import InputScript.Proofs.Renaming
import InputScript.Proofs.Lookups
import InputScript.Proofs.Binding
import InputScript.Proofs.Resolution
import InputScript.Proofs.Calls
import InputScript.Proofs.Joining
import InputScript.Proofs.Endings
import InputScript.Proofs.Handles
import InputScript.Proofs.Succession
import InputScript.Proofs.Workers
import InputScript.Proofs.Holding
import InputScript.Proofs.Marks
import InputScript.Proofs.Traces
import InputScript.Proofs.Itinerary
import InputScript.Proofs.Throttle
import InputScript.Proofs.Unwinding
import InputScript.Proofs.CallingOff
import InputScript.Proofs.Score
import InputScript.Proofs.Playing
import InputScript.Proofs.Refusals
import InputScript.Proofs.Numerals
import InputScript.Proofs.Integers
import InputScript.Proofs.Substitution
import InputScript.Proofs.Rounding
import InputScript.Proofs.Doubles
import InputScript.Proofs.Literals
import InputScript.Proofs.Fractions
import InputScript.Proofs.Inheritance
import InputScript.Proofs.Strokes
import InputScript.Proofs.FunctionKeys
import InputScript.Proofs.KeyNames
import InputScript.Proofs.Chords
import InputScript.Proofs.Unison
import InputScript.Proofs.Encoding
import InputScript.Proofs.Dictionaries
import InputScript.Proofs.SettingsLines
import InputScript.Proofs.SettingsUpkeep
import InputScript.Proofs.SettingsText
import InputScript.Proofs.SettingsReload
import InputScript.Proofs.References
import InputScript.Proofs.Grouping
import InputScript.Proofs.SettingsReads
import InputScript.Proofs.SettingsRefusal
import InputScript.Proofs.Shapes
