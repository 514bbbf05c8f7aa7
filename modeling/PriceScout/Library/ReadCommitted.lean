import Mathlib.Logic.Function.Basic
import PriceScout.Library.Runs

/-!
Transactions at the isolation level read committed, statement by statement. A
statement sees what was committed when it started, under what its own
transaction has written; row locks are held to the end of the transaction, and
its writes become visible together when it commits.
-/

namespace PriceScout.Library.ReadCommitted

open PriceScout.Library.Runs

/-- The next statement of a transaction, with where it leaves the transaction:
a plain read, a row lock that waits, a row lock that is skipped while another
transaction holds it, or a write, which fails when the data do not allow it. -/
inductive Statement (κ δ ω ℓ : Type) where
  | select (next : δ → ℓ)
  | lock (key : κ) (next : δ → ℓ)
  | lockOrSkip (key : κ) (next : δ → ℓ) (skipped : ℓ)
  | write (attempt : δ → Option (ω × ℓ))
  | commit
  | rollback

structure System (κ ι δ ω ℓ : Type) where
  apply : ω → δ → δ
  initial : ι → ℓ
  statement : ℓ → Statement κ δ ω ℓ

structure Transaction (ω ℓ : Type) where
  state : ℓ
  writes : List ω

/-- The committed data, the holder of each row lock and the open transactions. -/
structure World (κ τ δ ω ℓ : Type) where
  committed : δ
  holder : κ → Option τ
  active : τ → Option (Transaction ω ℓ)

inductive Event (τ ι : Type) where
  | start (t : τ) (request : ι)
  | advance (t : τ)
  | cancel (t : τ)
deriving DecidableEq

variable {κ τ ι δ ω ℓ : Type}

def System.view (sys : System κ ι δ ω ℓ) (writes : List ω) (d : δ) : δ :=
  writes.foldl (fun d w => sys.apply w d) d

namespace World

/-- Data on which no transaction works. -/
def quiet (d : δ) : World κ τ δ ω ℓ :=
  ⟨d, fun _ => none, fun _ => none⟩

variable [DecidableEq κ] [DecidableEq τ]

def put (w : World κ τ δ ω ℓ) (t : τ) (tx : Transaction ω ℓ) : World κ τ δ ω ℓ :=
  { w with active := Function.update w.active t (some tx) }

def take (w : World κ τ δ ω ℓ) (key : κ) (t : τ) : World κ τ δ ω ℓ :=
  { w with holder := Function.update w.holder key (some t) }

/-- End a transaction: release its locks and leave the data it gives. -/
def finish (w : World κ τ δ ω ℓ) (t : τ) (d : δ) : World κ τ δ ω ℓ where
  committed := d
  holder := fun key => if w.holder key = some t then none else w.holder key
  active := Function.update w.active t none

/-- No other transaction holds the lock. -/
def Free (w : World κ τ δ ω ℓ) (key : κ) (t : τ) : Prop :=
  w.holder key = none ∨ w.holder key = some t

instance (w : World κ τ δ ω ℓ) (key : κ) (t : τ) : Decidable (w.Free key t) :=
  inferInstanceAs (Decidable (_ ∨ _))

end World

variable [DecidableEq κ] [DecidableEq τ] (sys : System κ ι δ ω ℓ)

/-- Let an open transaction execute its next statement; one that has to wait
for a lock stays where it is. -/
def advance (w : World κ τ δ ω ℓ) (t : τ) (tx : Transaction ω ℓ) : World κ τ δ ω ℓ :=
  let d := sys.view tx.writes w.committed
  match sys.statement tx.state with
  | .select next => w.put t ⟨next d, tx.writes⟩
  | .lock key next => if w.Free key t then (w.take key t).put t ⟨next d, tx.writes⟩ else w
  | .lockOrSkip key next skipped =>
      if w.Free key t then (w.take key t).put t ⟨next d, tx.writes⟩
      else w.put t ⟨skipped, tx.writes⟩
  | .write attempt =>
      match attempt d with
      | some (x, next) => w.put t ⟨next, tx.writes ++ [x]⟩
      | none => w.finish t w.committed
  | .commit => w.finish t d
  | .rollback => w.finish t w.committed

def step (w : World κ τ δ ω ℓ) : Event τ ι → World κ τ δ ω ℓ
  | .start t request =>
      match w.active t with
      | none => w.put t ⟨sys.initial request, []⟩
      | some _ => w
  | .advance t =>
      match w.active t with
      | none => w
      | some tx => advance sys w t tx
  | .cancel t => w.finish t w.committed

/-- What a step can do. -/
inductive Step (w : World κ τ δ ω ℓ) : Event τ ι → World κ τ δ ω ℓ → Prop
  | unchanged (event : Event τ ι) : Step w event w
  | started (t : τ) (request : ι) (h : w.active t = none) :
      Step w (.start t request) (w.put t ⟨sys.initial request, []⟩)
  | selected (t : τ) (tx : Transaction ω ℓ) (next : δ → ℓ) (h : w.active t = some tx)
      (hstatement : sys.statement tx.state = .select next) :
      Step w (.advance t) (w.put t ⟨next (sys.view tx.writes w.committed), tx.writes⟩)
  | locked (t : τ) (tx : Transaction ω ℓ) (key : κ) (next : δ → ℓ) (h : w.active t = some tx)
      (hstatement : sys.statement tx.state = .lock key next ∨
        ∃ skipped, sys.statement tx.state = .lockOrSkip key next skipped)
      (hfree : w.Free key t) :
      Step w (.advance t)
        ((w.take key t).put t ⟨next (sys.view tx.writes w.committed), tx.writes⟩)
  | skipped (t : τ) (tx : Transaction ω ℓ) (key : κ) (next : δ → ℓ) (skipped : ℓ)
      (h : w.active t = some tx)
        (hstatement : sys.statement tx.state = .lockOrSkip key next skipped)
      (hbusy : ¬ w.Free key t) : Step w (.advance t) (w.put t ⟨skipped, tx.writes⟩)
  | wrote (t : τ) (tx : Transaction ω ℓ) (attempt : δ → Option (ω × ℓ)) (x : ω) (next : ℓ)
      (h : w.active t = some tx) (hstatement : sys.statement tx.state = .write attempt)
      (hattempt : attempt (sys.view tx.writes w.committed) = some (x, next)) :
      Step w (.advance t) (w.put t ⟨next, tx.writes ++ [x]⟩)
  | committed (t : τ) (tx : Transaction ω ℓ) (h : w.active t = some tx)
      (hstatement : sys.statement tx.state = .commit) :
      Step w (.advance t) (w.finish t (sys.view tx.writes w.committed))
  | ended (event : Event τ ι) (t : τ) : Step w event (w.finish t w.committed)

theorem step_step (w : World κ τ δ ω ℓ) (event : Event τ ι) :
    Step sys w event (step sys w event) := by
  cases event with
  | start t request =>
      simp only [step]
      cases h : w.active t with
      | none => exact .started t request h
      | some tx => exact .unchanged _
  | cancel t => exact .ended _ t
  | advance t =>
      simp only [step]
      cases h : w.active t with
      | none => exact .unchanged _
      | some tx =>
          simp only [advance]
          cases hstatement : sys.statement tx.state with
          | select next => exact .selected t tx next h hstatement
          | lock key next =>
              dsimp only
              split
              · exact .locked t tx key next h (Or.inl hstatement) ‹_›
              · exact .unchanged _
          | lockOrSkip key next skipped =>
              dsimp only
              split
              · exact .locked t tx key next h (Or.inr ⟨skipped, hstatement⟩) ‹_›
              · exact .skipped t tx key next skipped h hstatement ‹_›
          | write attempt =>
              dsimp only
              split
              · exact .wrote t tx attempt _ _ h hstatement ‹_›
              · exact .ended _ t
          | commit => exact .committed t tx h hstatement
          | rollback => exact .ended _ t

variable {sys} {w w' : World κ τ δ ω ℓ} {event : Event τ ι}

namespace World

omit [DecidableEq κ] in
theorem active_put_cases {t u : τ} {tx tx' : Transaction ω ℓ}
    (h : (w.put t tx).active u = some tx') :
    (u = t ∧ tx' = tx) ∨ (u ≠ t ∧ w.active u = some tx') := by
  simp only [put] at h
  by_cases hu : u = t
  · subst hu
    rw [Function.update_self, Option.some.injEq] at h
    exact Or.inl ⟨rfl, h.symm⟩
  · rw [Function.update_of_ne hu] at h
    exact Or.inr ⟨hu, h⟩

omit [DecidableEq κ] in
theorem active_finish {t u : τ} {d : δ} {tx : Transaction ω ℓ}
    (h : (w.finish t d).active u = some tx) :
    u ≠ t ∧ w.active u = some tx := by
  simp only [finish] at h
  by_cases hu : u = t
  · subst hu
    rw [Function.update_self] at h
    cases h
  · rw [Function.update_of_ne hu] at h
    exact ⟨hu, h⟩

omit [DecidableEq τ] in
theorem holder_take_self (key : κ) (t : τ) : (w.take key t).holder key = some t :=
  Function.update_self _ _ _

omit [DecidableEq τ] in
/-- Taking a free lock takes it from nobody. -/
theorem holder_take_of_holder {key key' : κ} {t u : τ} (hfree : w.Free key t) (hu : u ≠ t)
    (h : w.holder key' = some u) : (w.take key t).holder key' = some u := by
  by_cases hkey : key' = key
  · subst hkey
    rcases hfree with hnone | hown
    · rw [hnone] at h
      cases h
    · rw [hown, Option.some.injEq] at h
      exact absurd h.symm hu
  · exact (Function.update_of_ne hkey _ _).trans h

omit [DecidableEq τ] in
/-- A lock of the transaction's own stays its own. -/
theorem holder_take_own {key key' : κ} {t : τ} (h : w.holder key' = some t) :
    (w.take key t).holder key' = some t := by
  by_cases hkey : key' = key
  · subst hkey
    exact holder_take_self key' t
  · exact (Function.update_of_ne hkey _ _).trans h

omit [DecidableEq κ] in
theorem holder_finish {key : κ} {t u : τ} {d : δ} (hu : u ≠ t) (h : w.holder key = some u) :
    (w.finish t d).holder key = some u := by
  simp [finish, h, hu]

end World

/-- What holds of every new transaction and is kept by every statement on the
data it sees holds of every open transaction. -/
theorem forall_active_seen {P : Transaction ω ℓ → Prop} (h : ∀ t tx, w.active t = some tx → P tx)
    (hinitial : ∀ request, P ⟨sys.initial request, []⟩)
    (hselect : ∀ tx next, P tx → sys.statement tx.state = .select next →
      P ⟨next (sys.view tx.writes w.committed), tx.writes⟩)
    (hlock : ∀ tx key next, P tx → (sys.statement tx.state = .lock key next ∨
      ∃ skipped, sys.statement tx.state = .lockOrSkip key next skipped) →
      P ⟨next (sys.view tx.writes w.committed), tx.writes⟩)
    (hskip : ∀ tx key next skipped, P tx → sys.statement tx.state = .lockOrSkip key next skipped →
      P ⟨skipped, tx.writes⟩)
    (hwrite : ∀ tx attempt x next, P tx → sys.statement tx.state = .write attempt →
      attempt (sys.view tx.writes w.committed) = some (x, next) → P ⟨next, tx.writes ++ [x]⟩)
    (hstep : Step sys w event w') : ∀ t tx, w'.active t = some tx → P tx := by
  have put : ∀ {u : τ} {tx : Transaction ω ℓ} {v : World κ τ δ ω ℓ}, v.active = w.active → P tx →
      ∀ t tx', (v.put u tx).active t = some tx' → P tx' := by
    intro u tx v hactive hP t tx' ht
    rcases World.active_put_cases ht with ⟨-, rfl⟩ | ⟨-, ht⟩
    · exact hP
    · exact h t tx' (hactive ▸ ht)
  cases hstep with
  | unchanged event => exact h
  | started t request hnone => exact put rfl (hinitial request)
  | selected t tx next hactive hstatement =>
      exact put rfl (hselect tx next (h t tx hactive) hstatement)
  | locked t tx key next hactive hstatement hfree =>
      exact put rfl (hlock tx key next (h t tx hactive) hstatement)
  | skipped t tx key next skipped hactive hstatement hbusy =>
      exact put rfl (hskip tx key next skipped (h t tx hactive) hstatement)
  | wrote t tx attempt x next hactive hstatement hattempt =>
      exact put rfl (hwrite tx attempt x next (h t tx hactive) hstatement hattempt)
  | committed t tx hactive hstatement => exact fun u tx' hu => h u tx' (World.active_finish hu).2
  | ended event t => exact fun u tx' hu => h u tx' (World.active_finish hu).2

/-- What holds of every new transaction and is kept by every statement holds of
every open transaction. -/
theorem forall_active {P : Transaction ω ℓ → Prop} (h : ∀ t tx, w.active t = some tx → P tx)
    (hinitial : ∀ request, P ⟨sys.initial request, []⟩)
    (hselect : ∀ tx next d, P tx → sys.statement tx.state = .select next → P ⟨next d, tx.writes⟩)
    (hlock : ∀ tx key next d, P tx → (sys.statement tx.state = .lock key next ∨
      ∃ skipped, sys.statement tx.state = .lockOrSkip key next skipped) → P ⟨next d, tx.writes⟩)
    (hskip : ∀ tx key next skipped, P tx → sys.statement tx.state = .lockOrSkip key next skipped →
      P ⟨skipped, tx.writes⟩)
    (hwrite : ∀ tx attempt d x next, P tx → sys.statement tx.state = .write attempt →
      attempt d = some (x, next) → P ⟨next, tx.writes ++ [x]⟩)
    (hstep : Step sys w event w') : ∀ t tx, w'.active t = some tx → P tx :=
  forall_active_seen h hinitial (fun tx next => hselect tx next _)
    (fun tx key next => hlock tx key next _) hskip (fun tx attempt => hwrite tx attempt _) hstep

/-- Only a commit changes the committed data. -/
theorem committed_cases (hstep : Step sys w event w') : w'.committed = w.committed ∨
    ∃ t tx, event = .advance t ∧ w.active t = some tx ∧ sys.statement tx.state = .commit ∧
      w' = w.finish t (sys.view tx.writes w.committed) := by
  cases hstep with
  | unchanged | started | selected | locked | skipped | wrote | ended => exact Or.inl rfl
  | committed t tx hactive hstatement => exact Or.inr ⟨t, tx, rfl, hactive, hstatement, rfl⟩

section Protection

variable (claims : Transaction ω ℓ → Prop) (holds : δ → Prop) (key : κ)

/-- Every open transaction that relies on a fact about a row holds the lock of
the row, and the fact is true of the committed data. -/
def Protected (w : World κ τ δ ω ℓ) : Prop :=
  ∀ t tx, w.active t = some tx → claims tx → w.holder key = some t ∧ holds w.committed

/-- A transaction comes to rely on the fact only while it holds the lock and the
fact is true. -/
def Justified (w : World κ τ δ ω ℓ) (w' : World κ τ δ ω ℓ) : Prop :=
  ∀ t tx', w'.active t = some tx' → claims tx' →
    (∃ tx, w.active t = some tx ∧ claims tx) ∨ (w'.holder key = some t ∧ holds w.committed)

variable {claims holds key}

/-- Which transactions come to rely on the fact is told statement by statement. -/
theorem Justified.of_statements (hinitial : ∀ request, ¬ claims ⟨sys.initial request, []⟩)
    (hselect : ∀ t tx next, w.active t = some tx → sys.statement tx.state = .select next →
      claims ⟨next (sys.view tx.writes w.committed), tx.writes⟩ →
      claims tx ∨ (w.holder key = some t ∧ holds w.committed))
    (hlock : ∀ t tx key' next, event = .advance t → w.active t = some tx → w.Free key' t →
      (sys.statement tx.state = .lock key' next ∨
        ∃ skipped, sys.statement tx.state = .lockOrSkip key' next skipped) →
      claims ⟨next (sys.view tx.writes w.committed), tx.writes⟩ →
      claims tx ∨ (key' = key ∧ holds w.committed))
    (hskip : ∀ tx key' next skipped, sys.statement tx.state = .lockOrSkip key' next skipped →
      claims ⟨skipped, tx.writes⟩ → claims tx)
    (hwrite : ∀ tx attempt d x next, sys.statement tx.state = .write attempt →
      attempt d = some (x, next) → claims ⟨next, tx.writes ++ [x]⟩ → claims tx)
    (hstep : Step sys w event w') : Justified claims holds key w w' := by
  have put : ∀ {t u : τ} {tx tx' tx'' : Transaction ω ℓ} {v : World κ τ δ ω ℓ},
      v.active = w.active → w.active t = some tx → (v.put t tx'').active u = some tx' → claims tx' →
      (claims tx'' → claims tx ∨ (v.holder key = some t ∧ holds w.committed)) →
      (∃ tx, w.active u = some tx ∧ claims tx) ∨
        ((v.put t tx'').holder key = some u ∧ holds w.committed) := by
    intro t u tx tx' tx'' v hactive ht hu hclaims hnew
    rcases World.active_put_cases hu with ⟨rfl, rfl⟩ | ⟨-, hu⟩
    · exact (hnew hclaims).imp_left fun hold => ⟨tx, ht, hold⟩
    · exact Or.inl ⟨tx', hactive ▸ hu, hclaims⟩
  intro u tx' hu hclaims
  cases hstep with
  | unchanged event => exact Or.inl ⟨tx', hu, hclaims⟩
  | started t request hnone =>
      rcases World.active_put_cases hu with ⟨rfl, rfl⟩ | ⟨-, hu⟩
      · exact absurd hclaims (hinitial request)
      · exact Or.inl ⟨tx', hu, hclaims⟩
  | selected t tx next hactive hstatement =>
      exact put rfl hactive hu hclaims (hselect t tx next hactive hstatement)
  | locked t tx key' next hactive hstatement hfree =>
      refine put rfl hactive hu hclaims fun hnew => ?_
      refine (hlock t tx key' next rfl hactive hfree hstatement hnew).imp_right ?_
      rintro ⟨rfl, hholds⟩
      exact ⟨World.holder_take_self key' t, hholds⟩
  | skipped t tx key' next skipped hactive hstatement hbusy =>
      exact put rfl hactive hu hclaims fun hnew =>
        Or.inl (hskip tx key' next skipped hstatement hnew)
  | wrote t tx attempt x next hactive hstatement hattempt =>
      exact put rfl hactive hu hclaims fun hnew =>
        Or.inl (hwrite tx attempt _ x next hstatement hattempt hnew)
  | committed t tx hactive hstatement => exact Or.inl ⟨tx', (World.active_finish hu).2, hclaims⟩
  | ended event t => exact Or.inl ⟨tx', (World.active_finish hu).2, hclaims⟩

/-- What a transaction has made sure of under a row lock stays true while it
holds the lock, if no commit of a transaction that does not rely on it makes it
false. -/
theorem Protected.step (h : Protected claims holds key w)
    (hcommit : ∀ tx d, ¬ claims tx → holds d → holds (sys.view tx.writes d))
    (hjustified : Justified claims holds key w w') (hstep : Step sys w event w') :
    Protected claims holds key w' := by
  -- statements of a transaction that leave the data alone and take at most a free lock
  have kept : ∀ {v : World κ τ δ ω ℓ} {t : τ}, v.committed = w.committed →
      (∀ u, w.holder key = some u → v.holder key = some u) →
      (∀ u tx', v.active u = some tx' → claims tx' →
        (∃ tx, w.active u = some tx ∧ claims tx) ∨ (v.holder key = some u ∧ holds w.committed)) →
      Protected claims holds key v := by
    intro v t hcommitted hholder hjustified u tx' hu hclaims
    rw [hcommitted]
    rcases hjustified u tx' hu hclaims with ⟨tx, hactive, hclaims'⟩ | hnew
    · exact ⟨hholder u (h u tx hactive hclaims').1, (h u tx hactive hclaims').2⟩
    · exact hnew
  cases hstep with
  | unchanged event => exact h
  | started t request hnone => exact kept (t := t) rfl (fun _ hu => hu) hjustified
  | selected t tx next hactive hstatement => exact kept (t := t) rfl (fun _ hu => hu) hjustified
  | skipped t tx key' next skipped hactive hstatement hbusy =>
      exact kept (t := t) rfl (fun _ hu => hu) hjustified
  | wrote t tx attempt x next hactive hstatement hattempt =>
      exact kept (t := t) rfl (fun _ hu => hu) hjustified
  | locked t tx key' next hactive hstatement hfree =>
      refine kept (t := t) rfl (fun u hu => ?_) hjustified
      by_cases hut : u = t
      · subst hut
        exact World.holder_take_own hu
      · exact World.holder_take_of_holder hfree hut hu
  | committed t tx hactive hstatement =>
      intro u tx' hu hclaims
      obtain ⟨hut, hu⟩ := World.active_finish hu
      obtain ⟨hholder, hholds⟩ := h u tx' hu hclaims
      refine ⟨World.holder_finish hut hholder, hcommit tx _ (fun hown => hut ?_) hholds⟩
      have := (h t tx hactive hown).1
      rw [hholder, Option.some.injEq] at this
      exact this
  | ended event t =>
      intro u tx' hu hclaims
      obtain ⟨hut, hu⟩ := World.active_finish hu
      obtain ⟨hholder, hholds⟩ := h u tx' hu hclaims
      exact ⟨World.holder_finish hut hholder, hholds⟩

end Protection

omit [DecidableEq κ] [DecidableEq τ] in
theorem protected_quiet {claims : Transaction ω ℓ → Prop} {holds : δ → Prop} {key : κ} (d : δ) :
    Protected claims holds key (World.quiet d : World κ τ δ ω ℓ) := by
  intro t tx h
  cases h

theorem active_of_step {t : τ} {tx' : Transaction ω ℓ} (hstep : Step sys w event w')
    (h : w'.active t = some tx') :
    (∃ tx, w.active t = some tx) ∨ ∃ request, event = .start t request := by
  have put : ∀ {u : τ} {tx : Transaction ω ℓ} {v : World κ τ δ ω ℓ}, v.active = w.active →
      (∃ tx, w.active u = some tx) → (v.put u tx).active t = some tx' →
      (∃ tx, w.active t = some tx) := by
    intro u tx v hactive hu ht
    rcases World.active_put_cases ht with ⟨rfl, -⟩ | ⟨-, ht⟩
    · exact hu
    · exact ⟨tx', hactive ▸ ht⟩
  cases hstep with
  | unchanged event => exact Or.inl ⟨tx', h⟩
  | started u request hnone =>
      rcases World.active_put_cases h with ⟨rfl, -⟩ | ⟨-, ht⟩
      · exact Or.inr ⟨request, rfl⟩
      · exact Or.inl ⟨tx', ht⟩
  | selected u tx next hactive hstatement => exact Or.inl (put rfl ⟨tx, hactive⟩ h)
  | locked u tx key next hactive hstatement hfree => exact Or.inl (put rfl ⟨tx, hactive⟩ h)
  | skipped u tx key next skipped hactive hstatement hbusy => exact Or.inl (put rfl ⟨tx, hactive⟩ h)
  | wrote u tx attempt x next hactive hstatement hattempt => exact Or.inl (put rfl ⟨tx, hactive⟩ h)
  | committed u tx hactive hstatement => exact Or.inl ⟨tx', (World.active_finish h).2⟩
  | ended event u => exact Or.inl ⟨tx', (World.active_finish h).2⟩

/-- No transaction is open that no event starts. -/
theorem active_eq_none {events : List (Event τ ι)} {t : τ} (d : δ)
    (h : ∀ request, Event.start t request ∉ events) :
    (run (step sys) (World.quiet d) events).active t = none := by
  induction events using List.reverseRecOn with
  | nil => rfl
  | append_singleton events event ih =>
      have hnone := ih fun request hmem => h request (List.mem_append_left _ hmem)
      rw [run_append]
      change (step sys _ event).active t = none
      refine Option.eq_none_iff_forall_ne_some.mpr fun tx' hsome => ?_
      rcases active_of_step (step_step sys _ event) hsome with ⟨tx, htx⟩ | ⟨request, rfl⟩
      · rw [hnone] at htx
        cases htx
      · exact h request (by simp)

section Alone

/-- One transaction is open, and nobody else holds a lock. -/
structure Alone (w : World κ τ δ ω ℓ) (d : δ) (t : τ) (tx : Transaction ω ℓ) : Prop where
  committed : w.committed = d
  active : w.active t = some tx
  others : ∀ u, u ≠ t → w.active u = none
  locks : ∀ key, w.Free key t

variable (sys) {d : δ} {t : τ} {tx : Transaction ω ℓ}

theorem alone_start (d : δ) (t : τ) (request : ι) :
    Alone (step sys (World.quiet d : World κ τ δ ω ℓ) (.start t request)) d t
      ⟨sys.initial request, []⟩ where
  committed := rfl
  active := Function.update_self _ _ _
  others _ hu := Function.update_of_ne hu _ _
  locks _ := Or.inl rfl

namespace Alone

omit [DecidableEq κ] in
theorem put (h : Alone w d t tx) (tx' : Transaction ω ℓ) : Alone (w.put t tx') d t tx' where
  committed := h.committed
  active := Function.update_self _ _ _
  others u hu := (Function.update_of_ne hu _ _).trans (h.others u hu)
  locks := h.locks

omit [DecidableEq τ] in
theorem take (h : Alone w d t tx) (key : κ) : Alone (w.take key t) d t tx where
  committed := h.committed
  active := h.active
  others := h.others
  locks key' := by
    by_cases hkey : key' = key
    · subst hkey
      exact Or.inr (World.holder_take_self key' t)
    · exact (h.locks key').imp (Function.update_of_ne hkey _ _).trans
        (Function.update_of_ne hkey _ _).trans

omit [DecidableEq κ] in
theorem finish (h : Alone w d t tx) (d' : δ) : w.finish t d' = World.quiet d' := by
  simp only [World.finish, World.quiet, World.mk.injEq, true_and]
  constructor
  · funext key
    rcases h.locks key with hnone | hown
    · rw [hnone, if_neg nofun]
    · rw [if_pos hown]
  · funext u
    by_cases hu : u = t
    · subst hu
      exact Function.update_self _ _ _
    · exact (Function.update_of_ne hu _ _).trans (h.others u hu)

theorem select {next : δ → ℓ} {p : ℓ} (h : Alone w d t tx)
    (hstatement : sys.statement tx.state = .select next) (hnext : next (sys.view tx.writes d) = p) :
    Alone (step sys w (.advance t)) d t ⟨p, tx.writes⟩ := by
  have hstep : step sys w (.advance t) = w.put t ⟨p, tx.writes⟩ := by
    simp only [step, h.active, advance, hstatement, h.committed, hnext]
  rw [hstep]
  exact h.put _

theorem lock {key : κ} {next : δ → ℓ} {p : ℓ} (h : Alone w d t tx)
    (hstatement : sys.statement tx.state = .lock key next)
    (hnext : next (sys.view tx.writes d) = p) :
    Alone (step sys w (.advance t)) d t ⟨p, tx.writes⟩ := by
  have hstep : step sys w (.advance t) = (w.take key t).put t ⟨p, tx.writes⟩ := by
    simp only [step, h.active, advance, hstatement, h.committed, h.locks key, hnext, if_true]
  rw [hstep]
  exact (h.take key).put _

theorem write {attempt : δ → Option (ω × ℓ)} {x : ω} {next : ℓ} (h : Alone w d t tx)
    (hstatement : sys.statement tx.state = .write attempt)
    (hattempt : attempt (sys.view tx.writes d) = some (x, next)) :
    Alone (step sys w (.advance t)) d t ⟨next, tx.writes ++ [x]⟩ := by
  have hstep : step sys w (.advance t) = w.put t ⟨next, tx.writes ++ [x]⟩ := by
    simp only [step, h.active, advance, hstatement, h.committed, hattempt]
  rw [hstep]
  exact h.put _

theorem commit (h : Alone w d t tx) (hstatement : sys.statement tx.state = .commit) :
    step sys w (.advance t) = World.quiet (sys.view tx.writes d) := by
  simp only [step, h.active, advance, hstatement, h.committed]
  exact h.finish _

theorem rollback (h : Alone w d t tx) (hstatement : sys.statement tx.state = .rollback) :
    step sys w (.advance t) = World.quiet d := by
  simp only [step, h.active, advance, hstatement, h.committed]
  exact h.finish _

end Alone

/-- Without an open transaction nothing advances. -/
theorem run_quiet (d : δ) (t : τ) (n : Nat) :
    run (step sys) (World.quiet d : World κ τ δ ω ℓ) (List.replicate n (.advance t)) =
      World.quiet d := by
  induction n with
  | zero => rfl
  | succ n ih => exact ih

end Alone

end PriceScout.Library.ReadCommitted
