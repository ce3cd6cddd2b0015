import Mathlib
import LinearProgram.Host.Basic

/-!
# Records of what a machine was asked

A machine that keeps a record writes down every request with the answer it gave, in order. Keeping the record
changes neither the answers nor the machine (`Recorded`), so that what the record says of a program on such a
machine holds of that program on every machine. Events are taken note of and not recorded.
-/

namespace LinearProgram

/-- A request and the answer to it. -/
inductive Transaction where
  | contents (path : String) (answer : Except FileError ByteArray)
  | isFile (path : String) (answer : Bool)
  | findProgram (name : String) (answer : Option String)
  | makeScratch (answer : Except FileError String)
  | store (path text : String) (answer : Except FileError Unit)
  | start (program : String) (arguments : List String) (answer : Except FileError Finished)
  | now (answer : ℕ)

/-- What runs on a machine in a state of type `σ` that keeps a record. -/
abbrev Recording (σ : Type) : Type → Type :=
  StateM (List Transaction × σ)

variable {σ α β : Type}

/-- Makes a request and notes it with its answer. -/
def noting (note : α → Transaction) (request : StateM σ α) : Recording σ α :=
  fun (ts, w) =>
    let (a, w') := request.run w
    (a, ts ++ [note a], w')

/-- Runs what is not to be noted. -/
def unnoted (action : StateM σ α) : Recording σ α :=
  fun (ts, w) =>
    let (a, w') := action.run w
    (a, ts, w')

/-- The machine with a record. -/
def Host.recorded (host : Host (StateM σ)) : Host (Recording σ) where
  contents path := noting (.contents path) (host.contents path)
  isFile path := noting (.isFile path) (host.isFile path)
  findProgram name := noting (.findProgram name) (host.findProgram name)
  makeScratch := noting .makeScratch host.makeScratch
  store path text := noting (.store path text) (host.store path text)
  start program arguments := noting (.start program arguments) (host.start program arguments)
  log event := unnoted (host.log event)
  now := noting .now host.now

/-- `x` does what `y` does and keeps a record besides, where what it adds to the record and its result
satisfy `P`. -/
def Recorded (x : Recording σ α) (y : StateM σ α) (P : List Transaction → α → Prop) : Prop :=
  ∀ ts w, ∃ a new w', x.run (ts, w) = (a, ts ++ new, w') ∧ y.run w = (a, w') ∧ P new a

namespace Recorded

variable {x : Recording σ α} {y : StateM σ α} {P : List Transaction → α → Prop}

theorem mono {Q : List Transaction → α → Prop} (h : Recorded x y P) (hPQ : ∀ new a, P new a → Q new a) :
    Recorded x y Q := by
  intro ts w
  obtain ⟨a, new, w', hx, hy, ha⟩ := h ts w
  exact ⟨a, new, w', hx, hy, hPQ new a ha⟩

theorem pure {a : α} (h : P [] a) : Recorded (pure a : Recording σ α) (pure a) P :=
  fun ts w => ⟨a, [], w, by rw [List.append_nil]; rfl, rfl, h⟩

theorem bind {f : α → Recording σ β} {g : α → StateM σ β} {Q : List Transaction → β → Prop}
    (h : Recorded x y P)
    (hf : ∀ new a, P new a → Recorded (f a) (g a) fun later b => Q (new ++ later) b) :
    Recorded (x >>= f) (y >>= g) Q := by
  intro ts w
  obtain ⟨a, new, w', hx, hy, ha⟩ := h ts w
  obtain ⟨b, later, w'', hfa, hga, hb⟩ := hf new a ha (ts ++ new) w'
  refine ⟨b, new ++ later, w'', ?_, ?_, hb⟩
  · rw [StateT.run_bind, hx, ← List.append_assoc]
    exact hfa
  · rw [StateT.run_bind, hy]
    exact hga

theorem noting (note : α → Transaction) (request : StateM σ α) :
    Recorded (noting note request) request fun new a => new = [note a] :=
  fun _ w => ⟨(request.run w).1, _, (request.run w).2, rfl, rfl, rfl⟩

theorem unnoted (action : StateM σ α) : Recorded (unnoted action) action fun new _ => new = [] :=
  fun ts w => ⟨(action.run w).1, [], (action.run w).2, by rw [List.append_nil]; rfl, rfl, rfl⟩

theorem forM (as : List α) (action : α → StateM σ PUnit) :
    Recorded (as.forM fun a => LinearProgram.unnoted (action a)) (as.forM action)
      fun new _ => new = [] := by
  induction as with
  | nil => exact .pure rfl
  | cons a as ih =>
    refine (unnoted (action a)).bind fun new _ hnew => ?_
    rw [hnew]
    exact ih

end Recorded

end LinearProgram
