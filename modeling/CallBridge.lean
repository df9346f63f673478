import CallBridge.CommandLine
import CallBridge.Insn.Mnemonics
import CallBridge.Machine.Bench
import CallBridge.Main
import CallBridge.Proofs.Trace
import CallBridge.Scenario.Thunk
import CallBridge.Scenario.Trampoline
import CallBridge.Proofs.Framing
import CallBridge.Proofs.Places
import CallBridge.Proofs.Progress
import CallBridge.Proofs.Trampoline.Arguments
import CallBridge.Proofs.Trampoline.Delivery
import CallBridge.Proofs.Trampoline.Return
import CallBridge.Proofs.Thunk.Activation
import CallBridge.Proofs.Thunk.Record
import CallBridge.Proofs.Thunk.Entry
import CallBridge.Proofs.Thunk.Conversion
import CallBridge.Proofs.Thunk.Interpretation
import CallBridge.Proofs.Thunk.Return
import CallBridge.Proofs.Reach
import CallBridge.Proofs.FirstFit
import CallBridge.Proofs.Thunk.Discipline
import CallBridge.Proofs.NativeTypes
import CallBridge.Proofs.Rounding
import CallBridge.Proofs.Thunk.TaggedArgs
import CallBridge.Proofs.Trampoline.Size
import CallBridge.Proofs.RoundTrip
import CallBridge.Proofs.Assembler
import CallBridge.Proofs.Acceptance
import CallBridge.Proofs.Spelling
import CallBridge.Proofs.EnumChains
import CallBridge.Proofs.Listing
import CallBridge.Proofs.Serving
import CallBridge.Proofs.Registry
import CallBridge.Proofs.Refusal
import CallBridge.Proofs.Precedence
import CallBridge.Proofs.Reduction
import CallBridge.Proofs.Independence
import CallBridge.Proofs.Grammar.Signatures
import CallBridge.Proofs.Correspondence
import CallBridge.Proofs.Thunk.Shape
import CallBridge.Proofs.CommandLine.Outcomes
import CallBridge.Proofs.Grammar.Spacing
import CallBridge.Proofs.CommandLine.Unquoted
import CallBridge.Proofs.TaggedViews
import CallBridge.Proofs.FrameRegions
import CallBridge.Proofs.Loading
