import PriceScout.Library.Recordings
import PriceScout.Worker.Observations
import PriceScout.Worker.Safety

/-!
What a worker has seen of an element when it replays an action on it. The reads
that fail count as an element that is not there.
-/

namespace PriceScout.Worker.ActionInspection

open PriceScout.Library.Attempts
open PriceScout.Library.JsStrings
open PriceScout.Library.RegularExpressions
open PriceScout.Worker.Contracts
open PriceScout.Worker.Environment
open PriceScout.Worker.Observations (ShopPage)
open PriceScout.Worker.Safety

/-- What is read of an element, and what is replayed, with the world in which
it is. -/
inductive Deed (W : Type) where
  | innerText (session : Session) (selector : String) (answer : Except JsError String)
  | innerHtml (session : Session) (selector : String) (answer : Except JsError String)
  | replay (session : Session) (action : CachedAction) (w : W)

def Deed.isReplay {W : Type} : Deed W → Bool
  | .replay _ _ _ => true
  | _ => false

variable (runtime : Runtime) {W : Type} (outside : Outside W)

/-- The same outside, with a record of the deeds. -/
def watched : Outside (W × List (Deed W)) where
  aborted := fun s => ((outside.aborted s.1).1, ((outside.aborted s.1).2, s.2))
  now := fun s => ((outside.now s.1).1, ((outside.now s.1).2, s.2))
  lookup := fun hostname => onFst (outside.lookup hostname)
  init := fun session hostname => onFst (outside.init session hostname)
  goto := fun session href => onFst (outside.goto session href)
  url := fun session s => ((outside.url session s.1).1, ((outside.url session s.1).2, s.2))
  count := fun session selector => onFst (outside.count session selector)
  innerText := fun session selector =>
    recorded (.innerText session selector) (outside.innerText session selector)
  innerHtml := fun session selector =>
    recorded (.innerHtml session selector) (outside.innerHtml session selector)
  inputValue := fun session selector => onFst (outside.inputValue session selector)
  jsonLdCount := fun session => onFst (outside.jsonLdCount session)
  jsonLdText := fun session index => onFst (outside.jsonLdText session index)
  stagehandAct := fun session action => act fun s =>
    outcome (recorded (fun _ => .replay session action s.1) (outside.stagehandAct session action)) s
  stagehandObserve := fun instruction => onFst (outside.stagehandObserve instruction)
  stagehandExtract := onFst outside.stagehandExtract
  stagehandMetric := fun name s =>
    ((outside.stagehandMetric name s.1).1, ((outside.stagehandMetric name s.1).2, s.2))
  sessionId := fun s => ((outside.sessionId s.1).1, ((outside.sessionId s.1).2, s.2))
  generateIntent := fun intent => onFst (outside.generateIntent intent)
  generateNodes := fun tree variants => onFst (outside.generateNodes tree variants)
  snapshot := onFst outside.snapshot
  screenshot := onFst outside.screenshot
  mkdir := fun directory => onFst (outside.mkdir directory)
  writeFile := fun path content => onFst (outside.writeFile path content)

variable (session : Session) (action : CachedAction) (expectedOrigin : Url)

/-- The deeds of `replaySafeAction`, however it ends. -/
def deeds (w : W) : List (Deed W) :=
  (outcome (replaySafeAction runtime (watched outside) session action expectedOrigin) (w, [])).2.2

/-- Whatever is replayed on a page that has an element for it: the text and the
HTML of that element have been read, and they say nothing of a purchase. -/
def InspectedBefore (found : W → Session → String → Nat) (deeds : List (Deed W)) : Prop :=
  ∀ n session action w, deeds[n]? = some (.replay session action w) →
    1 ≤ found w session action.selector →
      ∃ text html, .innerText session action.selector (.ok text) ∈ deeds.take n ∧
        .innerHtml session action.selector (.ok html) ∈ deeds.take n ∧
        test forbiddenInteraction
          (action.description ++ "\n" ++ text ++ "\n" ++ slice 20000 html).toList = false

/-- A call of the locator finds nothing or fails, and leaves the world `w'`. -/
inductive Misses (selector : String) (w w' : W) : Prop
  | absent (h : Returns (outside.count session selector) w 0 w')
  | uncounted (e : JsError) (h : Fails (outside.count session selector) w e w')
  | noText (n : Nat) (w₁ : W) (e : JsError) (hn : n ≠ 0)
      (hcount : Returns (outside.count session selector) w n w₁)
      (h : Fails (outside.innerText session selector) w₁ e w')
  | noHtml (n : Nat) (w₁ w₂ : W) (text : String) (e : JsError) (hn : n ≠ 0)
      (hcount : Returns (outside.count session selector) w n w₁)
      (htext : Returns (outside.innerText session selector) w₁ text w₂)
      (h : Fails (outside.innerHtml session selector) w₂ e w')

/-- Every call of the locator answers. -/
def Reads (selector text html : String) (w w' : W) : Prop :=
  ∃ n w₁ w₂, n ≠ 0 ∧ Returns (outside.count session selector) w n w₁ ∧
    Returns (outside.innerText session selector) w₁ text w₂ ∧
    Returns (outside.innerHtml session selector) w₂ html w'

section Inspections

variable {runtime outside session action} {w w' : W}

theorem misses_or_reads (outside : Outside W) (session : Session) (selector : String) (w : W) :
    (∃ w', Misses outside session selector w w') ∨
      ∃ text html w', Reads outside session selector text html w w' := by
  rcases hcount : outcome (outside.count session selector) w with ⟨e | n, w₁⟩
  · exact .inl ⟨w₁, .uncounted e hcount⟩
  · by_cases hn : n = 0
    · subst hn
      exact .inl ⟨w₁, .absent hcount⟩
    · rcases htext : outcome (outside.innerText session selector) w₁ with ⟨e | text, w₂⟩
      · exact .inl ⟨w₂, .noText n w₁ e hn hcount htext⟩
      · rcases hhtml : outcome (outside.innerHtml session selector) w₂ with ⟨e | html, w₃⟩
        · exact .inl ⟨w₃, .noHtml n w₁ w₂ text e hn hcount htext hhtml⟩
        · exact .inr ⟨text, html, w₃, n, w₁, w₂, hn, hcount, htext, hhtml⟩

/-- A miss goes on without an inspection. -/
theorem inspection_of_misses (h : Misses outside session action.selector w w') :
    ∃ seen, outcome (assertSafeActionTarget (watched outside) session action) (w, []) =
        (.ok false, (w', seen)) ∧
      ∀ deed ∈ seen, deed.isReplay = false ∧
        ∀ selector html, deed ≠ .innerHtml session selector (.ok html) := by
  cases h with
  | absent h =>
      refine ⟨[], ?_, nofun⟩
      simp only [assertSafeActionTarget, readActionTarget, outcome_bind, outcome_tryCatch, watched,
        outcome_onFst, show outcome _ w = _ from h, if_pos, outcome_pure]
  | uncounted e h =>
      refine ⟨[], ?_, nofun⟩
      simp only [assertSafeActionTarget, readActionTarget, outcome_bind, outcome_tryCatch, watched,
        outcome_onFst, show outcome _ w = _ from h, outcome_pure]
  | noText n w₁ e hn hcount h =>
      refine ⟨[.innerText session action.selector (.error e)], ?_, ?_⟩
      · simp only [assertSafeActionTarget, readActionTarget, outcome_bind, outcome_tryCatch,
          watched, outcome_onFst, show outcome _ w = _ from hcount, if_neg hn, outcome_recorded,
          show outcome _ w₁ = _ from h, outcome_pure, List.nil_append]
      · simp [Deed.isReplay]
  | noHtml n w₁ w₂ text e hn hcount htext h =>
      refine ⟨[.innerText session action.selector (.ok text),
        .innerHtml session action.selector (.error e)], ?_, ?_⟩
      · simp only [assertSafeActionTarget, readActionTarget, outcome_bind, outcome_tryCatch,
          watched, outcome_onFst, show outcome _ w = _ from hcount, if_neg hn, outcome_recorded,
          show outcome _ w₁ = _ from htext, show outcome _ w₂ = _ from h, outcome_pure,
          List.nil_append, List.cons_append]
      · simp [Deed.isReplay]

theorem inspection_of_reads {text html : String}
    (h : Reads outside session action.selector text html w w') :
    outcome (assertSafeActionTarget (watched outside) session action) (w, []) =
      (if test forbiddenInteraction
          (action.description ++ "\n" ++ text ++ "\n" ++ slice 20000 html).toList then
        .error (.safetyError "The located action target appears to purchase, order, or subscribe")
      else .ok true,
      (w', [.innerText session action.selector (.ok text),
        .innerHtml session action.selector (.ok html)])) := by
  obtain ⟨n, w₁, w₂, hn, hcount, htext, hhtml⟩ := h
  simp only [assertSafeActionTarget, readActionTarget, outcome_bind, outcome_tryCatch, watched,
    outcome_onFst, show outcome _ w = _ from hcount, if_neg hn, outcome_recorded,
    show outcome _ w₁ = _ from htext, show outcome _ w₂ = _ from hhtml, outcome_pure]
  split <;> rfl

end Inspections

section Deeds

variable {runtime outside session action} {w w' : W}

/-- The program replays nothing. -/
abbrev Watches {α : Type} (x : Attempt JsError (W × List (Deed W)) α) : Prop :=
  Moves (Adds fun deed => deed.isReplay = false) x

theorem watches_check {α : Type} (x : Except JsError α) :
    Watches (check x : Attempt JsError (W × List (Deed W)) α) := by
  cases x with
  | ok a => exact .pure Adds.refl a
  | error e => exact .throw Adds.refl e

theorem watches_assertSafeActionTarget (session : Session) (action : CachedAction) :
    Watches (assertSafeActionTarget (watched outside) session action) := by
  have htext : Watches ((watched outside).innerText session action.selector) :=
    adds_recorded (P := fun deed : Deed W => deed.isReplay = false) (fun _ => rfl) _
  have hhtml : Watches ((watched outside).innerHtml session action.selector) :=
    adds_recorded (P := fun deed : Deed W => deed.isReplay = false) (fun _ => rfl) _
  have hread : Watches (readActionTarget (watched outside) session action) := by
    refine .bind Adds.trans (adds_onFst _) fun count => ?_
    split
    · exact .pure Adds.refl _
    · exact htext.bind Adds.trans fun text => hhtml.bind Adds.trans fun html => .pure Adds.refl _
  refine .bind Adds.trans (hread.tryCatch Adds.trans fun _ => .pure Adds.refl _) fun evidence => ?_
  split
  · exact .pure Adds.refl _
  · split
    · exact .throw Adds.refl _
    · exact .pure Adds.refl _

theorem watches_assertSafeReplacements (session : Session) (executed : List CachedAction) :
    Watches (assertSafeReplacements runtime (watched outside) session executed) := by
  induction executed with
  | nil => exact .pure Adds.refl _
  | cons replacement rest ih =>
      exact .bind Adds.trans (watches_check _) fun _ =>
        .bind Adds.trans (watches_assertSafeActionTarget session replacement) fun _ => ih

theorem deeds_of_rejected {e : JsError} (h : assertSafeAction runtime action = .error e) (w : W) :
    deeds runtime outside session action expectedOrigin w = [] := by
  simp only [deeds, replaySafeAction, outcome_bind, h, check, outcome_throw]

theorem deeds_of_refused {e : JsError} {seen : List (Deed W)}
    (hsafe : assertSafeAction runtime action = .ok ())
    (h : outcome (assertSafeActionTarget (watched outside) session action) (w, []) =
      (.error e, (w', seen))) :
    deeds runtime outside session action expectedOrigin w = seen := by
  simp only [deeds, replaySafeAction, outcome_bind, hsafe, check, outcome_pure, h]

/-- An action that gets past the inspection is replayed once, in the world that
the inspection has left. -/
theorem deeds_of_inspected {resolved : Bool} {seen : List (Deed W)}
    (hsafe : assertSafeAction runtime action = .ok ())
    (h : outcome (assertSafeActionTarget (watched outside) session action) (w, []) =
      (.ok resolved, (w', seen))) :
    ∃ later, deeds runtime outside session action expectedOrigin w =
        seen ++ .replay session { action with method := given action.method } w' :: later ∧
      ∀ deed ∈ later, deed.isReplay = false := by
  have hreplay : (outcome (replay (watched outside) session action) (w', seen)).2.2 =
      seen ++ [.replay session { action with method := given action.method } w'] := by
    simp only [replay, watched, outcome_bind, outcome_act, outcome_recorded]
    rcases outcome (outside.stagehandAct session { action with method := given action.method }) w'
      with ⟨e | result, w₁⟩
    · rfl
    · dsimp only
      split <;> rfl
  have hhandler (error : JsError) : Watches (if resolved then throw error else throw
      (.staleActionError ("Cached action target no longer resolves: " ++ error.message)) :
      Attempt JsError (W × List (Deed W)) (List CachedAction)) := by
    split <;> exact .throw Adds.refl _
  have hrest (executed : List CachedAction) : Watches (do
      let url ← ask ((watched outside).url session)
      check (assertSameOrigin runtime url expectedOrigin)
      assertSafeReplacements runtime (watched outside) session executed
      return executed) := by
    exact .bind Adds.trans (fun s => .of_eq rfl) fun url =>
      .bind Adds.trans (watches_check _) fun _ =>
      .bind Adds.trans (watches_assertSafeReplacements session executed) fun _ =>
      .pure Adds.refl executed
  have hcaught := Moves.of_tryCatch Adds.refl hhandler (replay (watched outside) session action)
    (w', seen)
  obtain ⟨later, hlater, hnone⟩ := hcaught.trans (Moves.of_bind Adds.refl hrest _ (w', seen))
  refine ⟨later, ?_, hnone⟩
  unfold deeds replaySafeAction
  rw [outcome_bind, hsafe]
  simp only [check, outcome_pure]
  rw [outcome_bind, h]
  refine hlater.trans ?_
  rw [hreplay, List.append_assoc]
  rfl

/-- An element that is missed is acted on without an inspection. -/
theorem not_inspected_of_misses {found : W → Session → String → Nat}
    (hsafe : assertSafeAction runtime action = .ok ())
    (hmisses : Misses outside session action.selector w w')
    (hfound : found w' session action.selector ≠ 0) :
    ¬ InspectedBefore found (deeds runtime outside session action expectedOrigin w) := by
  intro h
  obtain ⟨seen, hinspection, hseen⟩ := inspection_of_misses hmisses
  obtain ⟨later, hdeeds, -⟩ := deeds_of_inspected expectedOrigin hsafe hinspection
  obtain ⟨text, html, -, hhtml, -⟩ := h seen.length session
    { action with method := given action.method } w' (by simp [hdeeds])
    (Nat.pos_of_ne_zero hfound)
  rw [hdeeds, List.take_left] at hhtml
  exact (hseen _ hhtml).2 action.selector html rfl

end Deeds

section Watching

variable {runtime outside session action expectedOrigin}

/-- Two worlds that differ in the record of one of them only. -/
abbrev SameWorld (s : W × List (Deed W)) (w : W) : Prop :=
  s.1 = w

theorem sameWorld_onFst {α : Type} (x : Attempt JsError W α) : Agree SameWorld (onFst x) x := by
  rintro s w rfl
  exact ⟨rfl, rfl⟩

theorem sameWorld_recorded {α : Type} (entry : Except JsError α → Deed W)
    (x : Attempt JsError W α) : Agree SameWorld (recorded entry x) x := by
  rintro s w rfl
  exact ⟨rfl, rfl⟩

theorem sameWorld_check {α : Type} (x : Except JsError α) :
    Agree (SameWorld (W := W)) (check x) (check x) := by
  cases x with
  | ok a => exact .pure a
  | error e => exact .throw e

theorem sameWorld_assertSafeActionTarget (session : Session) (action : CachedAction) :
    Agree SameWorld (assertSafeActionTarget (watched outside) session action)
      (assertSafeActionTarget outside session action) := by
  have hread : Agree SameWorld (readActionTarget (watched outside) session action)
      (readActionTarget outside session action) := by
    refine (sameWorld_onFst _).bind fun count => ?_
    split
    · exact .pure _
    · exact (sameWorld_recorded _ _).bind fun text =>
        (sameWorld_recorded _ _).bind fun html => .pure _
  refine (hread.tryCatch fun _ => .pure none).bind fun evidence => ?_
  split
  · exact .pure _
  · split
    · exact .throw _
    · exact .pure _

theorem sameWorld_assertSafeReplacements (executed : List CachedAction) :
    Agree SameWorld (assertSafeReplacements runtime (watched outside) session executed)
      (assertSafeReplacements runtime outside session executed) := by
  induction executed with
  | nil => exact .pure _
  | cons replacement rest ih =>
      exact (sameWorld_check _).bind fun _ =>
        (sameWorld_assertSafeActionTarget session replacement).bind fun _ => ih

/-- The record changes nothing. -/
theorem sameWorld_replaySafeAction :
    Agree SameWorld (replaySafeAction runtime (watched outside) session action expectedOrigin)
      (replaySafeAction runtime outside session action expectedOrigin) := by
  have hreplay : Agree SameWorld (replay (watched outside) session action)
      (replay outside session action) := by
    have hact : Agree SameWorld
        ((watched outside).stagehandAct session { action with method := given action.method })
        (outside.stagehandAct session { action with method := given action.method }) := by
      rintro s w rfl
      exact ⟨rfl, rfl⟩
    refine hact.bind fun result => ?_
    dsimp only
    split
    · exact .throw _
    · exact .pure _
  refine (sameWorld_check _).bind fun _ =>
    (sameWorld_assertSafeActionTarget session action).bind fun resolved => ?_
  refine (hreplay.tryCatch fun error => ?_).bind fun executed => ?_
  · split
    · exact .throw _
    · exact .throw _
  · have hurl : Agree SameWorld (ask ((watched outside).url session))
        (ask (outside.url session) : Attempt JsError W String) := by
      rintro s w rfl
      exact ⟨rfl, rfl⟩
    exact hurl.bind fun url => (sameWorld_check _).bind fun _ =>
      (sameWorld_assertSafeReplacements executed).bind fun _ => .pure executed

end Watching

section Outcomes

/-- A page whose button, which is there to buy, hangs when its HTML is read. -/
def hangingPage : Outside Unit :=
  { ShopPage.shown { texts := [("xpath=//button", "Buy now")], scripts := [] } with
    innerHtml := fun _ _ => throw (.error "Timeout 30000ms exceeded") }

end Outcomes

end PriceScout.Worker.ActionInspection
