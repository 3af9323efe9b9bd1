import NodeDisks.Admission
import NodeDisks.Claim
import NodeDisks.CommandLine
import NodeDisks.Daemon.Loop
import NodeDisks.Daemon.Start
import NodeDisks.Daemon.Turn
import NodeDisks.Device
import NodeDisks.Discovery
import NodeDisks.Error
import NodeDisks.Event
import NodeDisks.Glob.Pattern
import NodeDisks.Host.Basic
import NodeDisks.Host.FileTree
import NodeDisks.Host.Memory
import NodeDisks.Identity
import NodeDisks.Inventory
import NodeDisks.Json.Basic
import NodeDisks.Json.Reader
import NodeDisks.Json.Record
import NodeDisks.Main
import NodeDisks.NodeLabels
import NodeDisks.Number
import NodeDisks.Path
import NodeDisks.Proofs.Admission.Filter
import NodeDisks.Proofs.Admission.Opening
import NodeDisks.Proofs.Admission.Widening
import NodeDisks.Proofs.Claim.Decision
import NodeDisks.Proofs.Claim.Handles
import NodeDisks.Proofs.Claim.Orphans
import NodeDisks.Proofs.Claim.Scan
import NodeDisks.Proofs.Daemon.Loop
import NodeDisks.Proofs.Device
import NodeDisks.Proofs.Device.Dialects
import NodeDisks.Proofs.Discovery
import NodeDisks.Proofs.Effects
import NodeDisks.Proofs.Glob
import NodeDisks.Proofs.Host.Chain
import NodeDisks.Proofs.Host.Listing
import NodeDisks.Proofs.Host.Resolution
import NodeDisks.Proofs.Host.Writing
import NodeDisks.Proofs.Identity.Cache
import NodeDisks.Proofs.Identity.Outcome
import NodeDisks.Proofs.Identity.Resolution
import NodeDisks.Proofs.Inventory.Failure
import NodeDisks.Proofs.Inventory.Preorder
import NodeDisks.Proofs.Inventory.Rows
import NodeDisks.Proofs.Inventory.SignatureLines
import NodeDisks.Proofs.Inventory.Survey
import NodeDisks.Proofs.Json.Codec
import NodeDisks.Proofs.Json.Grammar
import NodeDisks.Proofs.Json.Leaves
import NodeDisks.Proofs.Json.Order
import NodeDisks.Proofs.Json.Recognition
import NodeDisks.Proofs.Json.Text
import NodeDisks.Proofs.Mounts
import NodeDisks.Proofs.NodeLabels
import NodeDisks.Proofs.NodeSelector
import NodeDisks.Proofs.Notifications
import NodeDisks.Proofs.Path
import NodeDisks.Proofs.Path.Below
import NodeDisks.Proofs.Path.Join
import NodeDisks.Proofs.Path.Spelling
import NodeDisks.Proofs.Resource.RoundTrip
import NodeDisks.Proofs.SharedSurvey
import NodeDisks.Proofs.Text
import NodeDisks.Proofs.Text.Decimal
import NodeDisks.Proofs.VolumeSet.Claims
import NodeDisks.Proofs.VolumeSet.Containment
import NodeDisks.Proofs.VolumeSet.Delay
import NodeDisks.Proofs.VolumeSet.Independence
import NodeDisks.Proofs.VolumeSet.Opening
import NodeDisks.Proofs.VolumeSet.Orphans
import NodeDisks.Proofs.VolumeSet.Pass
import NodeDisks.Proofs.VolumeSet.Repetition
import NodeDisks.Proofs.VolumeSet.Run
import NodeDisks.Publication
import NodeDisks.Resource
import NodeDisks.Text
import NodeDisks.Text.Quoted
import NodeDisks.VolumeSet
import NodeDisks.Yaml.Scalar
import NodeDisks.Yaml.Token
import NodeDisks.Yaml.Value
