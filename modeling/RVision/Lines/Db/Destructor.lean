import RVision.Lines.Db.Draining

/-! `~connection_pool` from its first line to its last. Around the wait it reports to `m_logger`
of the pool, a pointer that the constructor leaves out of its initialisers and that no other
function of the pool reads or writes.
-/

namespace RVision.Lines.Db

open Transition

/-- The messages of a logger. -/
abbrev Logger := List String

inductive DestructionPc
  /-- The destructor has not been called. -/
  | uncalled
  /-- In the store and the wait. -/
  | draining
  /-- Before the second message. -/
  | reporting
  | ended
  /-- A call through a null pointer. -/
  | crashed
deriving DecidableEq, Repr

/-- A `connection_pool` with all that its destructor uses; `none` is the null pointer. -/
structure PoolObject where
  state : PoolState
  logger : Option Logger
  pc : DestructionPc := .uncalled

namespace PoolObject

/-- `m_logger` is not among the members that the constructor initialises. -/
def construct (size : UInt32) : PoolObject :=
  { state := { pool := .construct size }, logger := none }

/-- `m_logger->info(message)`. -/
def info (object : PoolObject) (message : String) (next : DestructionPc) : PoolObject :=
  match object.logger with
  | none => { object with pc := .crashed }
  | some messages => { object with logger := some (messages ++ [message]), pc := next }

def message (moment : String) (pool : ConnectionPool) : String :=
  "connection_pool::~connection_pool => " ++ moment
    ++ " pool_max_size: " ++ toString pool.max.toNat
    ++ ", pool_size: " ++ toString pool.curr.toNat

/-- The next step of `~connection_pool`. -/
def destruct (object : PoolObject) : Option PoolObject :=
  match object.pc with
  | .uncalled => some (object.info (message "before" object.state.pool) .draining)
  | .draining =>
      object.state.drain.map (fun state =>
        { object with
          state
          pc := if state.destructor = .exited then .reporting else .draining })
  | .reporting => some (object.info (message "after" object.state.pool) .ended)
  | .ended | .crashed => none

end PoolObject

inductive ObjectAction
  /-- A step in the life of an accessor. -/
  | accessor (action : PoolAction)
  /-- The next step of the pool's destructor. -/
  | destruct
deriving DecidableEq, Repr

def objectStep (object : PoolObject) : ObjectAction → Option PoolObject
  | .accessor action =>
      if action = .drain then none
      else (poolStep object.state action).map (fun state => { object with state })
  | .destruct => object.destruct

/-- A pool of `size` connections from its constructor on. -/
def objectMachine (size : UInt32) : Machine PoolObject ObjectAction where
  init := .construct size
  step := objectStep

/-- The destructor comes to its end, its wait over because the counter is full, with every
pointer that it uses set.
-/
structure Completes (size : UInt32) (object : PoolObject) : Prop where
  ends
    : ∃ steps final,
        (objectMachine size).runFrom object (List.replicate steps .destruct) = some final
        ∧ final.pc = .ended
  full : object.state.pool.max = object.state.pool.curr
  set : object.logger.isSome

-----------------------------------------------------------------------------------------
-- What one step does
-----------------------------------------------------------------------------------------

/-- The transitions with their guards. -/
inductive ObjectStep (object : PoolObject) : ObjectAction → PoolObject → Prop
  | accessor {action : PoolAction} {state : PoolState} (living : action ≠ .drain)
    (moved : poolStep object.state action = some state)
    : ObjectStep object (.accessor action) { object with state }
  | begin (pc : object.pc = .uncalled)
    : ObjectStep object .destruct
        (object.info (PoolObject.message "before" object.state.pool) .draining)
  | drain {state : PoolState} (pc : object.pc = .draining)
    (moved : poolStep object.state .drain = some state)
    : ObjectStep object .destruct
        { object with
          state
          pc := if state.destructor = .exited then .reporting else .draining }
  | report (pc : object.pc = .reporting)
    : ObjectStep object .destruct
        (object.info (PoolObject.message "after" object.state.pool) .ended)

section Object

variable {size : UInt32} {object next : PoolObject} {action : ObjectAction}

theorem ObjectStep.of_step (taken : objectStep object action = some next)
    : ObjectStep object action next := by
  cases action with
  | accessor action =>
      obtain ⟨living, mapped⟩ := Option.ite_none_left_eq_some.mp taken
      obtain ⟨state, moved, rfl⟩ := Option.map_eq_some_iff.mp mapped
      exact .accessor living moved
  | destruct =>
      cases pc : object.pc with
      | uncalled =>
          simp only [objectStep, PoolObject.destruct, pc, Option.some.injEq] at taken
          exact taken ▸ .begin pc
      | draining =>
          simp only [objectStep, PoolObject.destruct, pc] at taken
          obtain ⟨state, moved, rfl⟩ := Option.map_eq_some_iff.mp taken
          exact .drain pc moved
      | reporting =>
          simp only [objectStep, PoolObject.destruct, pc, Option.some.injEq] at taken
          exact taken ▸ .report pc
      | ended => simp [objectStep, PoolObject.destruct, pc] at taken
      | crashed => simp [objectStep, PoolObject.destruct, pc] at taken

theorem PoolObject.state_info (message : String) (pc : DestructionPc)
    : (object.info message pc).state = object.state := by
  unfold info
  split <;> rfl

theorem PoolObject.info_of_null (null : object.logger = none) (message : String)
    (pc : DestructionPc)
    : object.info message pc = { object with pc := .crashed } := by
  simp [info, null]

-----------------------------------------------------------------------------------------
-- Every run
-----------------------------------------------------------------------------------------

/-- The object's steps are steps of the pool, or leave the pool alone. -/
theorem state_of_reachable (reached : (objectMachine size).Reachable object)
    : (poolMachine size).Reachable object.state := by
  refine reached.project PoolObject.state Machine.reachable_init ?_
  intro object action next taken
  cases ObjectStep.of_step taken with
  | @accessor action _ _ moved => exact Or.inr ⟨action, moved⟩
  | begin _ => exact Or.inl (PoolObject.state_info _ _)
  | drain _ moved => exact Or.inr ⟨.drain, moved⟩
  | report _ => exact Or.inl (PoolObject.state_info _ _)

/-- Nobody ever sets the pointer, nor does the destructor come past its first use. -/
structure Null (object : PoolObject) : Prop where
  logger : object.logger = none
  stuck : object.pc = .uncalled ∨ object.pc = .crashed

theorem Null.pc_ne (h : Null object) {pc : DestructionPc} (past : pc ≠ .uncalled)
    (alive : pc ≠ .crashed)
    : object.pc ≠ pc := by
  rcases h.stuck with uncalled | crashed
  · exact uncalled ▸ past.symm
  · exact crashed ▸ alive.symm

/-- So the first line of the destructor is also its last. -/
theorem Null.destruct (h : Null object) (uncalled : object.pc = .uncalled)
    : object.destruct = some { object with pc := .crashed } := by
  simp [PoolObject.destruct, uncalled, PoolObject.info_of_null h.logger]

theorem Null.step (h : Null object) (taken : ObjectStep object action next) : Null next := by
  cases taken with
  | accessor _ _ => exact ⟨h.logger, h.stuck⟩
  | begin _ =>
      rw [PoolObject.info_of_null h.logger]
      exact ⟨h.logger, Or.inr rfl⟩
  | drain pc _ | report pc => exact absurd pc (h.pc_ne (by simp) (by simp))

theorem null_of_reachable (reached : (objectMachine size).Reachable object) : Null object := by
  apply reached.invariant (motive := Null)
  · exact ⟨rfl, Or.inl rfl⟩
  · exact fun _ _ _ _ before taken => before.step (.of_step taken)

/-- Before the destructor is called the pool is not draining. -/
theorem idle_of_reachable (reached : (objectMachine size).Reachable object)
    (uncalled : object.pc = .uncalled)
    : object.state.destructor = .idle := by
  revert uncalled
  apply reached.invariant
    (motive := fun object => object.pc = .uncalled → object.state.destructor = .idle)
  · exact fun _ => rfl
  · intro object action next reached before taken
    cases ObjectStep.of_step taken with
    | accessor living moved =>
        intro uncalled
        exact (PoolStep.of_step moved).destructor_eq living |>.1.trans (before uncalled)
    | begin _ | report _ =>
        rw [PoolObject.info_of_null (null_of_reachable reached).logger]
        intro uncalled
        cases uncalled
    | drain pc _ => exact absurd pc ((null_of_reachable reached).pc_ne (by simp) (by simp))

-----------------------------------------------------------------------------------------
-- Destruction
-----------------------------------------------------------------------------------------

/-- With no accessor left every connection is back, and counted. -/
theorem InBalance.full {s : PoolState} (h : InBalance size s)
    (free : ∀ thread, s.threads thread = .idle)
    : s.pool.max = s.pool.curr := by
  have empty (thread : Nat) : s.held thread = none := by
    simp [PoolState.held, free thread, AccessorPc.held]
  have length : s.pool.pool.length = size.toNat := by
    refine h.once.length_eq (fun conn small => ?_)
    rcases (h.once.all conn).mp small with member | ⟨thread, mine⟩
    · exact member
    · rw [empty thread] at mine
      cases mine
  have unlocked : s.ahead = 0 := by
    cases lock : s.lock with
    | none => simp [PoolState.ahead, lock]
    | some thread => simp [PoolState.ahead, lock, free thread, AccessorPc.ahead]
  have counted := h.counted
  rw [unlocked, length] at counted
  rw [h.max, ← UInt32.toNat_inj]
  omega

/-- Had the pointer been set, the destructor would take its four steps. -/
theorem completes_of_set {messages : Logger} (uncalled : object.pc = .uncalled)
    (idle : object.state.destructor = .idle)
    (full : object.state.pool.max = object.state.pool.curr)
    : Completes size { object with logger := some messages } := by
  refine ⟨⟨4, ?_⟩, full, rfl⟩
  simp [Machine.runFrom, objectMachine, objectStep, PoolObject.destruct, PoolObject.info,
    PoolState.drain, uncalled, idle, full, List.replicate]

/-- After every run that leaves no accessor the wait of the destructor would be over at once,
but it does not come to it: it crashes at its first line.
-/
theorem destruction_never_completes (reached : (objectMachine size).Reachable object)
    (uncalled : object.pc = .uncalled)
    (free : ∀ thread, object.state.threads thread = .idle)
    : ¬ Completes size object
      ∧ (objectMachine size).step object .destruct = some { object with pc := .crashed }
      ∧ (∀ steps final,
          (objectMachine size).runFrom object (List.replicate steps .destruct) = some final
          → final.pc ≠ .ended)
      ∧ object.state.pool.max = object.state.pool.curr
      ∧ ∀ messages, Completes size { object with logger := some messages } := by
  have null := null_of_reachable reached
  have full := (inBalance_of_reachable (state_of_reachable reached)).full free
  have never (steps : Nat) (final : PoolObject)
      (ran : (objectMachine size).runFrom object (List.replicate steps .destruct) = some final)
      : final.pc ≠ .ended :=
    (null_of_reachable (reached.runFrom ran)).pc_ne (by simp) (by simp)
  refine ⟨?_, ?_, never, full, ?_⟩
  · intro completes
    obtain ⟨steps, final, ran, ended⟩ := completes.ends
    exact never steps final ran ended
  · exact null.destruct uncalled
  · exact fun messages => completes_of_set uncalled (idle_of_reachable reached uncalled) full

end Object

/-- An accessor takes the only connection and puts it back. -/
def accessorRun : List ObjectAction :=
  [.accessor (.construct 0 1), .accessor (.advance 0), .accessor (.advance 0),
    .accessor (.advance 0), .accessor (.advance 0), .accessor (.advance 0),
    .accessor (.advance 0), .accessor (.advance 0), .accessor (.destroy 0),
    .accessor (.advance 0), .accessor (.advance 0), .accessor (.advance 0),
    .accessor (.advance 0)]

theorem destruction_never_completes_accessorRun
    : ∃ object,
        (objectMachine 1).run accessorRun = some object
        ∧ object.state.ended = [⟨⟨1, 0, [some 0]⟩, .constructed 0⟩]
        ∧ ¬ Completes 1 object := by
  obtain ⟨object, ran, used, uncalled, free⟩
      : ∃ object,
          (objectMachine 1).run accessorRun = some object
          ∧ object.state.ended = [⟨⟨1, 0, [some 0]⟩, .constructed 0⟩]
          ∧ object.pc = .uncalled
          ∧ ∀ thread, object.state.threads thread = .idle :=
    ⟨_, rfl, rfl, rfl, fun thread => by cases thread <;> rfl⟩
  exact ⟨object, ran, used, (destruction_never_completes ⟨accessorRun, ran⟩ uncalled free).1⟩

/-- A pool of two connections that was never used crashes when it is destroyed. -/
theorem destruction_crashes_unused
    : (objectMachine 2).run [.destruct] = some { PoolObject.construct 2 with pc := .crashed }
      ∧ ¬ Completes 2 (.construct 2) := by
  refine ⟨rfl, ?_⟩
  intro completes
  cases completes.set

end RVision.Lines.Db
