import LoopPlumbing.Bytecode.Assembler
import LoopPlumbing.ForEach.Filter
import LoopPlumbing.Json.Codec
import LoopPlumbing.Pipeline
import LoopPlumbing.Proofs.Enumeration
import LoopPlumbing.Proofs.Interleaving
import LoopPlumbing.Proofs.Sequence.Check
import LoopPlumbing.Proofs.Sequence.Progress
import LoopPlumbing.Proofs.Sequence.Evaluation
import LoopPlumbing.Proofs.Sequence.Termination
import LoopPlumbing.Proofs.Sequence.Walk
import LoopPlumbing.Proofs.Sequence.Derivation
import LoopPlumbing.Proofs.Sequence.DefiniteBinding
import LoopPlumbing.Proofs.Sequence.Language
import LoopPlumbing.Proofs.Sequence.ExactCheck
import LoopPlumbing.Proofs.Sequence.Simulation
import LoopPlumbing.Proofs.Sequence.Anywhere
import LoopPlumbing.Proofs.Sequence.Transparency
import LoopPlumbing.Proofs.Sequence.Ignored
import LoopPlumbing.Proofs.Sequence.Clue
import LoopPlumbing.Proofs.ForEach.Words
import LoopPlumbing.Proofs.ForEach.Skeleton
import LoopPlumbing.Proofs.ForEach.Memory
import LoopPlumbing.Proofs.ForEach.Session
import LoopPlumbing.Proofs.ForEach.Annotations
import LoopPlumbing.Proofs.ForEach.Loops
import LoopPlumbing.Proofs.ForEach.Screen
import LoopPlumbing.Proofs.ForEach.Regions
import LoopPlumbing.Proofs.Feature.Params
import LoopPlumbing.Proofs.Feature.Layout
import LoopPlumbing.Proofs.Feature.Expressions
import LoopPlumbing.Proofs.Feature.RoundTrip
import LoopPlumbing.Proofs.Feature.Selection
import LoopPlumbing.Proofs.Json.RoundTrip
import LoopPlumbing.Proofs.Sequence.Tracing
import LoopPlumbing.Proofs.Sequence.Nullability
import LoopPlumbing.Proofs.Sequence.Verdict
import LoopPlumbing.Proofs.Sequence.Path
import LoopPlumbing.Proofs.Sequence.Frame
import LoopPlumbing.Proofs.Sequence.Embedding
import LoopPlumbing.Proofs.Sequence.Factoring
import LoopPlumbing.Proofs.Sequence.Choice
import LoopPlumbing.Proofs.Sequence.PassedOver
import LoopPlumbing.Proofs.Sequence.Conjunction
import LoopPlumbing.Proofs.Sequence.Unrolling
import LoopPlumbing.Proofs.Bytecode.Workshop
import LoopPlumbing.Proofs.ForEach.Vocabulary
import LoopPlumbing.Proofs.ForEach.Tracing
import LoopPlumbing.Proofs.ForEach.Offsets
import LoopPlumbing.Proofs.ForEach.Embedding
import LoopPlumbing.Proofs.ForEach.Renaming
import LoopPlumbing.Proofs.ForEach.Headers
import LoopPlumbing.Proofs.Pipeline.Calls
import LoopPlumbing.Proofs.Pipeline.Relay
