import PixelScene.Main
import PixelScene.Proofs.FirstOccurrence
import PixelScene.Proofs.FirstWins
import PixelScene.Proofs.Script.Merge
import PixelScene.Proofs.Script.Assembly
import PixelScene.Proofs.Import.Graph
import PixelScene.Proofs.Import.Walk
import PixelScene.Proofs.Import.Order
import PixelScene.Proofs.Import.Reading
import PixelScene.Proofs.Import.Coverage
import PixelScene.Proofs.Import.Remerge
import PixelScene.Proofs.Import.Path
import PixelScene.Proofs.Import.Confined
import PixelScene.Proofs.Expression.Grammar
import PixelScene.Proofs.Node.Quote
import PixelScene.Proofs.Node.Word
import PixelScene.Proofs.Node.Inline
import PixelScene.Proofs.Node.Flow
import PixelScene.Proofs.Node.FlowReading
import PixelScene.Proofs.Node.Block
import PixelScene.Proofs.Node.Line
import PixelScene.Proofs.Node.Layout
import PixelScene.Proofs.Node.LayoutReading
import PixelScene.Proofs.Node.Frame
import PixelScene.Proofs.Node.Move
import PixelScene.Proofs.Node.LayoutNoise
import PixelScene.Proofs.Node.Continuation
import PixelScene.Proofs.Node.QuotedKey
import PixelScene.Proofs.Change
import PixelScene.Proofs.Memory.Write
import PixelScene.Proofs.Number.Integer
import PixelScene.Proofs.Memory.Cell
import PixelScene.Proofs.Memory.Slot
import PixelScene.Proofs.Memory.Part
import PixelScene.Proofs.Memory.Mutation
import PixelScene.Proofs.Number.Digits
import PixelScene.Proofs.Expression.Lexeme
import PixelScene.Proofs.Expression.Printing
import PixelScene.Proofs.Expression.RoundTrip
import PixelScene.Proofs.Component.Frame
import PixelScene.Proofs.Simulation.ScratchParts
import PixelScene.Proofs.Simulation.Pass
import PixelScene.Proofs.Simulation.WriteSet
import PixelScene.Proofs.Simulation.History
import PixelScene.Proofs.Simulation.Lifecycle
import PixelScene.Proofs.Atlas
import PixelScene.Proofs.Simulation.SpriteByte
import PixelScene.Proofs.Component.Failure
import PixelScene.Proofs.Simulation.Faults
import PixelScene.Proofs.Simulation.Isolation
import PixelScene.Proofs.Success
import PixelScene.Proofs.Simulation.Turns
import PixelScene.Proofs.Script.Numbering
import PixelScene.Proofs.TableHistory
import PixelScene.Proofs.Cartridge
import PixelScene.Proofs.Number.Nearest
import PixelScene.Proofs.Number.Shortest
import PixelScene.Proofs.Number.Decimal
import PixelScene.Proofs.Json.Numeral
import PixelScene.Proofs.Json.RoundTrip
import PixelScene.Proofs.Json.Decode
import PixelScene.Proofs.Scenario.Recording
import PixelScene.Proofs.Scenario.Run
import PixelScene.Proofs.Disk
import PixelScene.Proofs.Program.Rehearse
import PixelScene.Proofs.Expression.Place
import PixelScene.Proofs.Expression.Failure
import PixelScene.Proofs.Simulation.Warnings
import PixelScene.Proofs.Simulation.Spawning
import PixelScene.Proofs.Touching
import PixelScene.Proofs.Guarded.Steps
import PixelScene.Proofs.Guarded.Memory
import PixelScene.Proofs.Guarded.Geometry
import PixelScene.Proofs.Guarded.Trigger
import PixelScene.Proofs.Guarded.Motion
import PixelScene.Proofs.Guarded.Life
import PixelScene.Proofs.Guarded.Tick
import PixelScene.Proofs.Expression.Names
import PixelScene.Proofs.Simulation.Commuting
import PixelScene.Proofs.Simulation.Placement
import PixelScene.Proofs.Simulation.Resolution
import PixelScene.Proofs.Simulation.StateChoice
import PixelScene.Proofs.Simulation.KeyLayers
import PixelScene.Proofs.ActionName
import PixelScene.Proofs.Expression.Target
import PixelScene.Proofs.Number.Comparison
import PixelScene.Proofs.SpriteGrid
import PixelScene.Proofs.Script.Sections
import PixelScene.Proofs.Rounds
import PixelScene.Proofs.Node.FlowRounds
import PixelScene.Proofs.Node.BlockRounds
import PixelScene.Proofs.Node.Ending
import PixelScene.Proofs.Node.FirstFault
import PixelScene.Proofs.Component.Idempotence
import PixelScene.Proofs.Outline
import PixelScene.Proofs.Component.Repetition
import PixelScene.Proofs.Component.Countdown
import PixelScene.Proofs.Component.Cadence
import PixelScene.Proofs.Component.PathWalk
import PixelScene.Proofs.Program.Options
