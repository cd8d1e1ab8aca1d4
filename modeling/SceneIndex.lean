import SceneIndex.Text.Blank
import SceneIndex.Text.Numeral
import SceneIndex.Text.Outline
import SceneIndex.Flags.Basic
import SceneIndex.Flags.Text
import SceneIndex.Key
import SceneIndex.Filter
import SceneIndex.Item.Id
import SceneIndex.Item.IdSet
import SceneIndex.Item.Payload
import SceneIndex.Item.Basic
import SceneIndex.Buckets.Basic
import SceneIndex.Batch.Basic
import SceneIndex.Shelf
import SceneIndex.Batch.Shelf
import SceneIndex.Config.Basic
import SceneIndex.Scene.Event
import SceneIndex.Scene.Storage
import SceneIndex.Scene.Basic
import SceneIndex.Toml.Value
import SceneIndex.Toml.Table
import SceneIndex.Toml.Scalar
import SceneIndex.Text.Escape
import SceneIndex.Toml.Quoted
import SceneIndex.Toml.Document
import SceneIndex.Config.OfToml
import SceneIndex.Ron.Value
import SceneIndex.Ron.Lexical
import SceneIndex.Ron.Document
import SceneIndex.Config.OfRon
import SceneIndex.Text.Reading
import SceneIndex.Config.Write
import SceneIndex.Config.Folder
import SceneIndex.Config.File
import SceneIndex.World.Observer
import SceneIndex.World.Basic
import SceneIndex.World.Step
import SceneIndex.Sink
import SceneIndex.Proofs.Batch.Join
import SceneIndex.Proofs.Batch.Log
import SceneIndex.Proofs.Buckets.Contents
import SceneIndex.Proofs.Storage.Slots
import SceneIndex.Proofs.Storage.Filed
import SceneIndex.Proofs.Storage.Visits
import SceneIndex.Proofs.Scene.Process
import SceneIndex.Proofs.Scene.Lifecycle
import SceneIndex.Proofs.Session.Basic
import SceneIndex.Proofs.Session.Index
import SceneIndex.Proofs.Session.LateBucket
import SceneIndex.Proofs.Session.History
import SceneIndex.Proofs.Session.Growth
import SceneIndex.Proofs.Batch.Outcome
import SceneIndex.Proofs.Frame.Completed
import SceneIndex.Proofs.Frame.Stopped
import SceneIndex.Proofs.Frame.Accounted
import SceneIndex.Proofs.Frame.Turns
import SceneIndex.Proofs.Frame.Producers
import SceneIndex.Proofs.Frame.Coalesced
import SceneIndex.Proofs.World.Scenes
import SceneIndex.Proofs.World.Binding
import SceneIndex.Proofs.World.Attachment
import SceneIndex.Proofs.Text.Trim
import SceneIndex.Proofs.Text.Numeral
import SceneIndex.Proofs.Flags.Parts
import SceneIndex.Proofs.Flags.Text
import SceneIndex.Proofs.Flags.Readers
import SceneIndex.Proofs.Buckets.Rekey
import SceneIndex.Proofs.Filter.Algebra
import SceneIndex.Proofs.Filter.Pins
import SceneIndex.Proofs.Text.Reading
import SceneIndex.Proofs.Toml.Words
import SceneIndex.Proofs.Toml.Range
import SceneIndex.Proofs.Toml.Said
import SceneIndex.Proofs.Toml.Root
import SceneIndex.Proofs.Toml.Lines
import SceneIndex.Proofs.Config.Settings
import SceneIndex.Proofs.Config.Toml
import SceneIndex.Proofs.Ron.Words
import SceneIndex.Proofs.Ron.Values
import SceneIndex.Proofs.Config.Ron
import SceneIndex.Proofs.Config.Readings
import SceneIndex.Proofs.Config.Saved
import SceneIndex.Proofs.Config.Loaded
