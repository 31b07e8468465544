import BetSettlement.Machine.Runs

/-!
# Scripts that a process may leave unfinished

The statements of a script run in a transaction, which a script can commit on its way and begin anew. A process
that ends leaves behind what was committed last.
-/

namespace BetSettlement.Machine

variable {σ α β ι : Type*}

inductive Instruction (α : Type*) where
  | inside (a : α)
  | commit
  | autocommit (a : α)

/-- The transaction is over before the statements of the block, and begins again after them. -/
def autocommitBlock (statements : List α) : List (Instruction α) :=
  .commit :: statements.map .autocommit

structure Session (σ : Type*) where
  durable : σ
  working : σ

def Session.start (s : σ) : Session σ := ⟨s, s⟩

def Session.step (exec : σ → α → Option σ) (session : Session σ) : Instruction α → Option (Session σ)
  | .inside a => (exec session.working a).map fun working => { session with working }
  | .commit => some (.start session.working)
  | .autocommit a => (exec session.durable a).map .start

/-- No statement of the script is refused, what is committed is `safe` wherever the process ends, and `post` holds
at the end of the script. -/
def Survives (exec : σ → α → Option σ) (safe : σ → Prop) (post : Session σ → Prop) :
    List (Instruction α) → Session σ → Prop
  | [], session => safe session.durable ∧ post session
  | statement :: rest, session => safe session.durable ∧
      ∃ next, session.step exec statement = some next ∧ Survives exec safe post rest next

variable {exec : σ → α → Option σ} {safe : σ → Prop} {post : Session σ → Prop} {session : Session σ}
  {rest : List (Instruction α)}

theorem Survives.durable {script : List (Instruction α)} (h : Survives exec safe post script session) :
    safe session.durable := by
  cases script with
  | nil => exact h.1
  | cons statement rest => exact h.1

theorem survives_inside {a : α} {working : σ} (kept : safe session.durable)
    (runs : exec session.working a = some working)
    (h : Survives exec safe post rest { session with working }) :
    Survives exec safe post (.inside a :: rest) session :=
  ⟨kept, { session with working }, by simp [Session.step, runs], h⟩

theorem survives_commit (kept : safe session.durable) (h : Survives exec safe post rest (.start session.working)) :
    Survives exec safe post (.commit :: rest) session :=
  ⟨kept, .start session.working, rfl, h⟩

theorem survives_autocommit {a : α} {durable : σ} (kept : safe session.durable)
    (runs : exec session.durable a = some durable) (h : Survives exec safe post rest (.start durable)) :
    Survives exec safe post (.autocommit a :: rest) session :=
  ⟨kept, .start durable, by simp [Session.step, runs], h⟩

theorem survives_append {front back : List (Instruction α)}
    (h : Survives exec safe (Survives exec safe post back) front session) :
    Survives exec safe post (front ++ back) session := by
  induction front generalizing session with
  | nil => exact h.2
  | cons statement rest ih =>
    obtain ⟨kept, next, runs, tail⟩ := h
    exact ⟨kept, next, runs, ih tail⟩

theorem Survives.imp {safe' : σ → Prop} {post' : Session σ → Prop} {script : List (Instruction α)}
    (kept' : ∀ s, safe s → safe' s) (weaken : ∀ s, post s → post' s) (h : Survives exec safe post script session) :
    Survives exec safe' post' script session := by
  induction script generalizing session with
  | nil => exact ⟨kept' _ h.1, weaken session h.2⟩
  | cons statement rest ih =>
    obtain ⟨kept, next, runs, tail⟩ := h
    exact ⟨kept' _ kept, next, runs, ih tail⟩

/-- A process that runs the script to its end. -/
theorem Survives.run {script : List (Instruction α)} (h : Survives exec safe post script session) :
    ∃ last, Machine.run (Session.step exec) session script = some last ∧ post last := by
  induction script generalizing session with
  | nil => exact ⟨session, rfl, h.2⟩
  | cons statement rest ih =>
    obtain ⟨-, next, runs, tail⟩ := h
    obtain ⟨last, reached, holds⟩ := ih tail
    exact ⟨last, run_cons.mpr ⟨next, runs, reached⟩, holds⟩

/-- The script has one end. -/
theorem Survives.ends {script : List (Instruction α)} {last : Session σ} (h : Survives exec safe post script session)
    (reached : Machine.run (Session.step exec) session script = some last) :
    Survives exec safe (· = last) script session := by
  induction script generalizing session with
  | nil => exact ⟨h.1, run_nil.mp reached⟩
  | cons statement rest ih =>
    obtain ⟨kept, next, runs, tail⟩ := h
    obtain ⟨middle, first, reached⟩ := run_cons.mp reached
    obtain rfl : next = middle := Option.some.inj (runs.symm.trans first)
    exact ⟨kept, next, runs, ih tail reached⟩

/-- A process that ends after `n` statements. -/
theorem Survives.cut {script : List (Instruction α)} (h : Survives exec safe post script session) (n : Nat) :
    ∃ last, Machine.run (Session.step exec) session (script.take n) = some last ∧ safe last.durable := by
  induction script generalizing session n with
  | nil =>
    rw [List.take_nil]
    exact ⟨session, rfl, h.1⟩
  | cons statement rest ih =>
    cases n with
    | zero => exact ⟨session, rfl, h.durable⟩
    | succ n =>
      obtain ⟨-, next, runs, tail⟩ := h
      obtain ⟨last, reached, kept⟩ := ih tail n
      exact ⟨last, run_cons.mpr ⟨next, runs, reached⟩, kept⟩

/-! ### Scripts of several parts -/

/-- The parts lead from one station to the other. -/
def Chains (source target : β → ι) : ι → List β → ι → Prop
  | i, [], j => i = j
  | i, part :: rest, j => source part = i ∧ Chains source target (target part) rest j

instance decidableChains [DecidableEq ι] {source target : β → ι} :
    ∀ i parts j, Decidable (Chains source target i parts j)
  | i, [], j => inferInstanceAs (Decidable (i = j))
  | i, part :: rest, j =>
    have : Decidable (Chains source target (target part) rest j) := decidableChains (target part) rest j
    inferInstanceAs (Decidable (source part = i ∧ Chains source target (target part) rest j))

theorem survives_parts {source target : β → ι} {script : β → List (Instruction α)} (station : ι → Session σ → Prop)
    (durable : ∀ i s, station i s → safe s.durable)
    (part : ∀ b s, station (source b) s → Survives exec safe (station (target b)) (script b) s) {i j : ι}
    {parts : List β} (chains : Chains source target i parts j) (begins : station i session) :
    Survives exec safe (station j) (parts.flatMap script) session := by
  induction parts generalizing i session with
  | nil =>
    obtain rfl : i = j := chains
    exact ⟨durable i session begins, begins⟩
  | cons b rest ih =>
    obtain ⟨rfl, chains⟩ := chains
    rw [List.flatMap_cons]
    exact survives_append ((part b session begins).imp (fun _ => id) fun s middle => ih chains middle)

end BetSettlement.Machine
