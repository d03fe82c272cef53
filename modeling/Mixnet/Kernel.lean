import Mixnet.Chunk
import Mixnet.Fault.Text
import Mixnet.Stream

/-!
# Kernels

A kernel is the computation inside a module.  It is called with one chunk at a time and computes
over the slots of that chunk, in the stream of its phase and in the buffer of its round.

## Main definitions

* `Workspace`: the stream and the buffer a kernel computes over
* `Kernel.End`: how a call ends
* `Kernel`: a named computation
* `Kernel.overPayloads`: a kernel that asks for a payload stream
* `Kernel.slotwise`: a kernel that treats the slots of its chunk one by one

## Design notes

A call can return, report an error, or die.  Death inside a kernel is contained: it becomes an error
of the call, and what the kernel wrote before it stays written.
-/

namespace Mixnet

/-- What a kernel computes over. -/
structure Workspace where
  /-- The payloads of the phase. -/
  stream : Stream
  /-- The secrets of the round. -/
  buffer : RoundBuffer

/-- A linked payload stream and the buffer beside it. -/
structure PayloadWorkspace where
  /-- The payload cells. -/
  cells : LinkedPayloads
  /-- The secrets of the round. -/
  buffer : RoundBuffer

/-- How a call of a kernel ends. -/
inductive Kernel.End where
  /-- It returned. -/
  | done
  /-- It reported an error. -/
  | failed (error : KernelError)
  /-- It died, with a text if it left one. -/
  | died (text : Option String)
deriving DecidableEq

/-- The result of a call: death is an error like any other. -/
def Kernel.End.toExcept : Kernel.End → Except KernelError Unit
  | .done => .ok ()
  | .failed error => .error error
  | .died text => .error (.panicked (text.getD "non-string panic payload"))

/-- A named computation over the slots of a chunk. -/
structure Kernel where
  /-- The name of the kernel. -/
  name : String
  /-- One call. -/
  call : Chunk → Workspace → Kernel.End × Workspace

namespace Kernel

/-- A kernel over payload pairs.  On any other stream it reports the type it expects. -/
def overPayloads (name : String)
    (body : Chunk → PayloadWorkspace → Kernel.End × PayloadWorkspace) : Kernel where
  name := name
  call := fun chunk workspace =>
    match workspace.stream with
    | .blank _ => (.failed (.streamMismatch PayloadStream.typeName), workspace)
    | .payload stream =>
      match stream.linked with
      | .error error => (.failed (.stream error), workspace)
      | .ok cells =>
        let (outcome, after) := body chunk { cells, buffer := workspace.buffer }
        (outcome, { stream := .payload ⟨some after.cells⟩, buffer := after.buffer })

/-- Treats slots one after the other; a fault ends the walk, and earlier slots stay treated. -/
def walk (body : Nat → PayloadWorkspace → Except Fault PayloadWorkspace) :
    List Nat → PayloadWorkspace → Kernel.End × PayloadWorkspace
  | [], workspace => (.done, workspace)
  | slot :: rest, workspace =>
    match body slot workspace with
    | .ok after => walk body rest after
    | .error fault => (.died (some fault.message), workspace)

/-- A kernel that treats the slots of its chunk in ascending order. -/
def slotwise (name : String)
    (body : Nat → PayloadWorkspace → Except Fault PayloadWorkspace) : Kernel :=
  overPayloads name fun chunk workspace => walk body chunk.slots workspace

/-- A kernel that changes nothing. -/
def idle : Kernel := overPayloads "noop" fun _ workspace => (.done, workspace)

end Kernel

end Mixnet
