import DocWire.Proofs.Client.Calls

/-!
# Runs over several collections

A client works with documents of several types in turn. A trace of such a run keeps the client before
and after each turn and what the turn came to. Main statements: `trace_split`, a moment of a trace is a
turn taken after those before it; `view_takeAll`, what each turn adds to a list, a run adds in order;
`takeAll_map`, a run over one type is such a run; and `calls_run`, what it adds to a record of calls.
-/
set_option autoImplicit false

namespace DocWire

/-- A step of a client with documents of a type. -/
structure Turn (κ : Type) where
  Doc : Type
  type : DocumentType Doc
  step : Step Doc κ

/-- A turn that was taken. -/
structure Moment (σ κ : Type) where
  before : Client σ
  turn : Turn κ
  result : Except Failure (Outcome turn.Doc)
  after : Client σ

/-- The calls that were recorded during a turn. -/
def Moment.sent {σ κ : Type} (calls : σ → List Call) (m : Moment σ κ) : List Call :=
  (calls m.after.world.transport).drop (calls m.before.world.transport).length

namespace Client
variable {σ κ α β : Type}

def take (t : Transport σ) (apply : κ → σ → σ) (client : Client σ) (turn : Turn κ) : Moment σ κ :=
  let (result, after) := client.step t apply turn.type turn.step
  ⟨client, turn, result, after⟩

def takeAll (t : Transport σ) (apply : κ → σ → σ) (turns : List (Turn κ)) (client : Client σ) :
    Client σ :=
  turns.foldl (fun client turn => (client.take t apply turn).after) client

def trace (t : Transport σ) (apply : κ → σ → σ) : List (Turn κ) → Client σ → List (Moment σ κ)
  | [], _ => []
  | turn :: rest, client =>
    client.take t apply turn :: trace t apply rest (client.take t apply turn).after

section
variable {t : Transport σ} {apply : κ → σ → σ}

/-- A run over one type is a run over several. -/
theorem takeAll_map (type : DocumentType α) (steps : List (Step α κ)) (client : Client σ) :
    takeAll t apply (steps.map fun step => ⟨α, type, step⟩) client =
      (run t apply type steps client).2 := by
  induction steps generalizing client with
  | nil => rfl
  | cons step rest ih => exact ih (client.step t apply type step).2

/-- A moment of a trace is a turn taken by the client that the turns before it have made. -/
theorem trace_split {turns : List (Turn κ)} {client : Client σ} {front back : List (Moment σ κ)}
    {m : Moment σ κ} (h : trace t apply turns client = front ++ m :: back) :
    ∃ earlier turn later, turns = earlier ++ turn :: later ∧ front = trace t apply earlier client ∧
      m = (takeAll t apply earlier client).take t apply turn := by
  induction front generalizing turns client with
  | nil =>
    cases turns with
    | nil => cases h
    | cons turn rest => exact ⟨[], turn, rest, rfl, rfl, (List.cons.inj h).1.symm⟩
  | cons m' front ih =>
    cases turns with
    | nil => cases h
    | cons turn rest =>
      obtain ⟨hm, hr⟩ := List.cons.inj h
      obtain ⟨earlier, turn', later, rfl, rfl, rfl⟩ := ih hr
      exact ⟨turn :: earlier, turn', later, rfl, by rw [← hm]; rfl, rfl⟩

theorem exists_take_of_mem {turns : List (Turn κ)} {client : Client σ} {m : Moment σ κ}
    (h : m ∈ trace t apply turns client) :
    ∃ (before : Client σ) (turn : Turn κ), m = before.take t apply turn := by
  obtain ⟨front, back, hs⟩ := List.append_of_mem h
  obtain ⟨earlier, turn, -, -, -, rfl⟩ := trace_split hs
  exact ⟨takeAll t apply earlier client, turn, rfl⟩

/-- When every turn adds to the end of a list, a run adds what its turns add, in order. -/
theorem view_takeAll (view : Client σ → List β) (added : Moment σ κ → List β)
    (h : ∀ client turn, view (client.take t apply turn).after =
      view client ++ added (client.take t apply turn))
    (turns : List (Turn κ)) (client : Client σ) :
    view (takeAll t apply turns client) =
      view client ++ (trace t apply turns client).flatMap added := by
  induction turns generalizing client with
  | nil => exact (List.append_nil _).symm
  | cons turn rest ih =>
    have ht : view (takeAll t apply (turn :: rest) client) =
        view (takeAll t apply rest (client.take t apply turn).after) := rfl
    rw [ht, ih, h, trace, List.flatMap_cons, List.append_assoc]

/-! ## Calls -/

variable {calls : σ → List Call}

theorem sent_take (h : t.Records calls) (ha : ∀ instruction s, calls (apply instruction s) = calls s)
    (client : Client σ) (turn : Turn κ) :
    (client.take t apply turn).sent calls = (client.stepCall? turn.type turn.step).toList := by
  have hs := calls_step h ha client turn.type turn.step
  unfold Moment.sent take
  rw [hs, List.drop_left]

theorem calls_take (h : t.Records calls) (ha : ∀ instruction s, calls (apply instruction s) = calls s)
    (client : Client σ) (turn : Turn κ) :
    calls (client.take t apply turn).after.world.transport =
      calls client.world.transport ++ (client.take t apply turn).sent calls := by
  rw [sent_take h ha]
  exact calls_step h ha client turn.type turn.step

/-- A record of calls after turns is the record before them and the calls of the turns, in order. -/
theorem calls_takeAll (h : t.Records calls)
    (ha : ∀ instruction s, calls (apply instruction s) = calls s) (turns : List (Turn κ))
    (client : Client σ) :
    calls (takeAll t apply turns client).world.transport =
      calls client.world.transport ++ (trace t apply turns client).flatMap (Moment.sent calls) :=
  view_takeAll (fun client => calls client.world.transport) (Moment.sent calls) (calls_take h ha) turns
    client

/-! ## Runs over one type -/

theorem flatMap_history (calls : σ → List Call) (type : DocumentType α) (steps : List (Step α κ))
    (client : Client σ) :
    (history t apply calls type steps client).flatMap Prod.snd =
      (trace t apply (steps.map fun step => ⟨α, type, step⟩) client).flatMap (Moment.sent calls) := by
  induction steps generalizing client with
  | nil => rfl
  | cons step rest ih => exact congrArg (_ ++ ·) (ih (client.step t apply type step).2)

/-- A record of calls after a run is the record before it and the calls of the steps, in order. -/
theorem calls_run (h : t.Records calls) (ha : ∀ instruction s, calls (apply instruction s) = calls s)
    (type : DocumentType α) (steps : List (Step α κ)) (client : Client σ) :
    calls (run t apply type steps client).2.world.transport =
      calls client.world.transport ++ (history t apply calls type steps client).flatMap Prod.snd := by
  rw [← takeAll_map, calls_takeAll h ha, flatMap_history]

end
end Client
end DocWire
