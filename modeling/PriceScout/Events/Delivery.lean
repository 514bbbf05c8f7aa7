import Mathlib.Data.Finset.Card
import PriceScout.Events.Broker

/-!
What reaches a console: every publication is offered once to each channel that was
subscribed when it began, in the order in which the publications were made.
-/

namespace PriceScout.Events.Delivery

open PriceScout.Events.Broker
open PriceScout.Library.Channels
open PriceScout.Library.JsonTexts
open PriceScout.Library.Runs

def Frame.payload? : Frame → Option Payload
  | .update payload => some payload
  | .connected | .empty | .keepalive => none

/-- What has been sent to the console: what it wrote, then what still waits in its channel. -/
def received (k : Console) : List Payload :=
  k.body.filterMap Frame.payload? ++ k.channel.buffer

/-- What has been sent to the console number `c`, if it has come. -/
def receivedBy (s : System) (c : Nat) : List Payload :=
  (s.consoles[c]?).elim [] received

/-- What the action sends to the console number `c`. -/
def accepted (s : System) (a : Action) (c : Nat) : List Payload :=
  match a with
  | .offer number c' =>
      match s.publications[number]?, s.consoles[c']? with
      | some p, some k =>
          if c' = c ∧ c' ∈ p.remaining ∧ k.channel.closed = false then k.channel.taken p.payload
          else []
      | _, _ => []
  | _ => []

/-- The steps of one console that leave the broker alone, with what they add to the gauge. -/
inductive Moves (k : Console) : Console → Int → Prop
  | connected (hphase : k.phase = .subscribed) :
      Moves k { k with phase := .streaming, body := k.body ++ [.connected] } 1
  | received (payload : Payload) (rest : List Payload) (hphase : k.phase = .streaming)
      (hbuffer : k.channel.buffer = payload :: rest) :
      Moves k { k with channel := k.channel.drop, body := k.body ++ [.update payload] } 0
  | receivedEmpty (hphase : k.phase = .streaming) (hclosed : k.channel.closed = true) :
      Moves k { k with body := k.body ++ [.empty] } 0
  | keptAlive (hphase : k.phase = .streaming) :
      Moves k { k with body := k.body ++ [.keepalive] } 0
  | disconnected (hphase : k.phase = .streaming) : Moves k { k with phase := .leaving } (-1)

/-- What an action does. -/
inductive Took (s : System) : Action → System → Prop
  | idle (a : Action) (h : ∀ c, accepted s a c = []) : Took s a s
  | subscribed (hfree : s.readLocked = false) :
      Took s .subscribe
        { s with
          subscribers := insert s.consoles.length s.subscribers
          consoles := s.consoles ++ [⟨.make, .subscribed, []⟩] }
  | published (event : Event) : Took s (.publish event) (s.publish event)
  | offered (number c : Nat) (p : Publication) (k : Console)
      (hp : s.publications[number]? = some p) (hk : s.consoles[c]? = some k)
      (hremaining : c ∈ p.remaining) (hopen : k.channel.closed = false) :
      Took s (.offer number c)
        ((s.setPublication number { p with remaining := p.remaining.erase c }).setConsole c
          { k with channel := k.channel.offer p.payload })
  | panicked (number c : Nat) (p : Publication) (k : Console)
      (hp : s.publications[number]? = some p) (hk : s.consoles[c]? = some k)
      (hremaining : c ∈ p.remaining) (hclosed : k.channel.closed = true) :
      Took s (.offer number c) { s with panicked := true }
  | finished (number : Nat) (p : Publication) (hp : s.publications[number]? = some p)
      (hdone : p.remaining = ∅) :
      Took s (.finish number) (s.setPublication number { p with finished := true })
  | moved (a : Action) (c : Nat) (k k' : Console) (change : Int) (s' : System)
      (h : ∀ c, accepted s a c = []) (hk : s.consoles[c]? = some k) (hmoves : Moves k k' change)
      (hs' : s' = { s.setConsole c k' with connections := s.connections + change }) :
      Took s a s'
  | unsubscribed (c : Nat) (k : Console) (hk : s.consoles[c]? = some k)
      (hfree : s.readLocked = false) (hphase : k.phase = .leaving) (hmem : c ∈ s.subscribers) :
      Took s (.unsubscribe c)
        { s.setConsole c { k with phase := .gone, channel := k.channel.close } with
          subscribers := s.subscribers.erase c }
  | unsubscribedAgain (c : Nat) (k : Console) (hk : s.consoles[c]? = some k)
      (hphase : k.phase = .leaving) (hmem : c ∉ s.subscribers) :
      Took s (.unsubscribe c) (s.setConsole c { k with phase := .gone })

section Steps

variable {s : System} {a : Action} {c number : Nat}

/-- A step that leaves the gauge alone. -/
theorem took_setConsole {k k' : Console} (hnone : ∀ c, accepted s a c = [])
    (hk : s.consoles[c]? = some k) (h : Moves k k' 0) : Took s a (s.setConsole c k') := by
  refine .moved a c k k' 0 _ hnone hk h ?_
  simp [System.setConsole]

theorem took_onConsole {f : Console → System} (hnone : ∀ c, accepted s a c = [])
    (h : ∀ k, s.consoles[c]? = some k → Took s a (f k)) : Took s a (s.onConsole c f) := by
  unfold System.onConsole
  cases hk : s.consoles[c]? with
  | none => exact .idle a hnone
  | some k => exact h k hk

theorem took_offer : Took s (.offer number c) (step s (.offer number c)) := by
  simp only [step, System.onPublication, System.onConsole]
  cases hp : s.publications[number]? with
  | none => exact .idle _ fun c' => by simp [accepted, hp]
  | some p =>
      cases hk : s.consoles[c]? with
      | none => exact .idle _ fun c' => by simp [accepted, hp, hk]
      | some k =>
          simp only [Option.elim_some, System.offer]
          split
          · rename_i hremaining
            cases hclosed : k.channel.closed with
            | true => exact .panicked number c p k hp hk hremaining hclosed
            | false => exact .offered number c p k hp hk hremaining hclosed
          · rename_i hremaining
            exact .idle _ fun c' => by simp [accepted, hp, hk, hremaining]

/-- Every step of the system is one of these. -/
theorem took_step (s : System) (a : Action) : Took s a (step s a) := by
  cases a with
  | subscribe =>
      simp only [step, System.subscribe]
      split
      · exact .idle _ fun _ => rfl
      · rename_i hfree
        exact .subscribed (Bool.eq_false_iff.mpr hfree)
  | connect c =>
      refine took_onConsole (fun _ => rfl) fun k hk => ?_
      unfold System.connect
      split
      · exact .moved _ c k _ 1 _ (fun _ => rfl) hk (.connected ‹_›) rfl
      · exact .idle _ fun _ => rfl
  | publish event => exact .published event
  | offer number c => exact took_offer
  | finish number =>
      simp only [step, System.onPublication]
      cases hp : s.publications[number]? with
      | none => exact .idle _ fun _ => rfl
      | some p =>
          simp only [Option.elim_some, System.finish]
          split
          · exact .finished number p hp ‹_›
          · exact .idle _ fun _ => rfl
  | receive c =>
      refine took_onConsole (fun _ => rfl) fun k hk => ?_
      unfold System.receive
      split
      · rename_i hphase
        split
        · rename_i payload rest hbuffer
          exact took_setConsole (fun _ => rfl) hk (.received payload rest hphase hbuffer)
        · split
          · exact took_setConsole (fun _ => rfl) hk (.receivedEmpty hphase ‹_›)
          · exact .idle _ fun _ => rfl
      · exact .idle _ fun _ => rfl
  | keepalive c =>
      refine took_onConsole (fun _ => rfl) fun k hk => ?_
      unfold System.keepalive
      split
      · exact took_setConsole (fun _ => rfl) hk (.keptAlive ‹_›)
      · exact .idle _ fun _ => rfl
  | disconnect c =>
      refine took_onConsole (fun _ => rfl) fun k hk => ?_
      unfold System.disconnect
      split
      · exact .moved _ c k _ (-1) _ (fun _ => rfl) hk (.disconnected ‹_›) rfl
      · exact .idle _ fun _ => rfl
  | unsubscribe c =>
      refine took_onConsole (fun _ => rfl) fun k hk => ?_
      unfold System.unsubscribe
      split
      · exact .idle _ fun _ => rfl
      · rename_i hready
        simp only [Bool.or_eq_true, decide_eq_true_eq, not_or, Bool.not_eq_true, ne_eq,
          not_not] at hready
        split
        · exact .unsubscribed c k hk hready.1 hready.2 ‹_›
        · exact .unsubscribedAgain c k hk hready.2 ‹_›

end Steps

section Received

variable {s : System} {a : Action} {c c' number : Nat} {k k' : Console} {p : Publication}
  {change : Int}

theorem getElem?_set_of_some {α : Type} {l : List α} {i : Nat} {x y : α} (h : l[i]? = some x)
    (j : Nat) : (l.set i y)[j]? = if i = j then some y else l[j]? := by
  obtain ⟨hlt, -⟩ := List.getElem?_eq_some_iff.mp h
  rw [List.getElem?_set, if_pos hlt]

theorem getElem?_concat_of_some {α : Type} {l : List α} {i : Nat} {x y : α}
    (h : (l ++ [x])[i]? = some y) : l[i]? = some y ∨ i = l.length ∧ y = x := by
  rcases lt_trichotomy i l.length with hlt | rfl | hgt
  · exact Or.inl (by rwa [List.getElem?_append_left hlt] at h)
  · rw [List.getElem?_concat_length] at h
    exact Or.inr ⟨rfl, (Option.some.inj h).symm⟩
  · rw [List.getElem?_eq_none] at h
    · cases h
    · rw [List.length_append, List.length_singleton]
      exact hgt

theorem receivedBy_setConsole (hk : s.consoles[c]? = some k) :
    receivedBy (s.setConsole c k') c' = if c = c' then received k' else receivedBy s c' := by
  unfold receivedBy System.setConsole
  rw [getElem?_set_of_some hk]
  split <;> rfl

theorem receivedBy_of_some (hk : s.consoles[c]? = some k) : receivedBy s c = received k := by
  rw [receivedBy, hk, Option.elim_some]

/-- What was sent to a console is what it wrote and what still waits, however it moves. -/
theorem received_moves (h : Moves k k' change) : received k' = received k := by
  cases h with
  | connected | receivedEmpty | keptAlive => simp [received, Frame.payload?]
  | disconnected => rfl
  | received payload rest _ hbuffer =>
      have hdrop := Channel.cons_buffer_drop hbuffer
      simp [received, Frame.payload?, ← hdrop]

theorem receivedBy_setConsole_of_eq (hk : s.consoles[c]? = some k)
    (h : received k' = received k) : receivedBy (s.setConsole c k') c' = receivedBy s c' := by
  rw [receivedBy_setConsole hk]
  split
  · rename_i hsame
    rw [h, ← hsame, receivedBy_of_some hk]
  · rfl

theorem receivedBy_subscribed : receivedBy { s with
    subscribers := insert s.consoles.length s.subscribers
    consoles := s.consoles ++ [⟨.make, .subscribed, []⟩] } c = receivedBy s c := by
  unfold receivedBy
  dsimp only
  rcases lt_trichotomy c s.consoles.length with hlt | rfl | hgt
  · rw [List.getElem?_append_left hlt]
  · simp [received]
  · rw [List.getElem?_eq_none hgt.le, List.getElem?_eq_none]
    rw [List.length_append, List.length_singleton]
    exact hgt

/-- A console only ever gets what the step sends to it. -/
theorem receivedBy_step (s : System) (a : Action) (c : Nat) :
    receivedBy (step s a) c = receivedBy s c ++ accepted s a c := by
  have htook := took_step s a
  generalize step s a = s' at htook
  cases htook with
  | idle _ hnone => rw [hnone, List.append_nil]
  | subscribed _ => simp [receivedBy_subscribed, accepted]
  | published event => simp [accepted, receivedBy, System.publish]
  | panicked number c' p k hp hk _ hclosed => simp [accepted, hp, hk, hclosed, receivedBy]
  | finished => simp [accepted, receivedBy, System.setPublication]
  | moved _ c' k k' change _ hnone hk hmoves hs' =>
      rw [hnone, List.append_nil, hs']
      exact receivedBy_setConsole_of_eq hk (received_moves hmoves)
  | unsubscribed c' k hk | unsubscribedAgain c' k hk =>
      simp only [accepted, List.append_nil]
      exact receivedBy_setConsole_of_eq hk rfl
  | offered number c' p k hp hk hremaining hopen =>
      have hk' : (s.setPublication number { p with
          remaining := p.remaining.erase c' }).consoles[c']? = some k := hk
      rw [receivedBy_setConsole hk']
      by_cases hsame : c' = c
      · subst hsame
        simp [accepted, hp, hk, hremaining, hopen, receivedBy_of_some hk, received]
      · simp [accepted, hp, hk, hsame]
        rfl

end Received

/-- The broker's channels are open while they are subscribed, and the audience of a
publication stays subscribed until it has finished. -/
structure Guarded (s : System) : Prop where
  calm : s.panicked = false
  registered : ∀ c, c ∈ s.subscribers ↔
    ∃ k : Console, s.consoles[c]? = some k ∧ k.channel.closed = false
  gone : ∀ (c : Nat) (k : Console), s.consoles[c]? = some k →
    (k.channel.closed = true ↔ k.phase = .gone)
  numbered : ∀ (n : Nat) (p : Publication), s.publications[n]? = some p → p.payload.number = n
  ranged : ∀ (n : Nat) (p : Publication), s.publications[n]? = some p → p.remaining ⊆ p.audience
  done : ∀ (n : Nat) (p : Publication), s.publications[n]? = some p → p.finished = true →
    p.remaining = ∅
  held : ∀ (n : Nat) (p : Publication), s.publications[n]? = some p → p.finished = false →
    p.audience ⊆ s.subscribers

section Guards

variable {s s' : System} {a : Action} {c n : Nat} {k k' : Console} {p : Publication} {change : Int}

theorem finished_of_free (hfree : s.readLocked = false) (hp : s.publications[n]? = some p) :
    p.finished = true := by
  have hall := List.any_eq_false.mp hfree p (List.mem_of_getElem? hp)
  simpa using hall

theorem closed_moves (h : Moves k k' change) : k'.channel.closed = k.channel.closed := by
  cases h <;> rfl

theorem phase_moves (h : Moves k k' change) : k.phase ≠ .gone ∧ k'.phase ≠ .gone := by
  cases h with
  | connected hphase | received _ _ hphase | receivedEmpty hphase | keptAlive hphase
  | disconnected hphase => simp [hphase]

theorem Guarded.new : Guarded System.new where
  calm := rfl
  registered c := by simp [System.new]
  gone c k h := by simp [System.new] at h
  numbered n p h := by simp [System.new] at h
  ranged n p h := by simp [System.new] at h
  done n p h := by simp [System.new] at h
  held n p h := by simp [System.new] at h

/-- A console that is changed stays open or closed as it was. -/
theorem Guarded.setConsole (h : Guarded s) (hk : s.consoles[c]? = some k)
    (hclosed : k'.channel.closed = k.channel.closed) (hphase : k'.phase = .gone ↔ k.phase = .gone) :
    Guarded (s.setConsole c k') where
  calm := h.calm
  registered c' := by
    rw [System.setConsole, getElem?_set_of_some hk]
    split
    · rename_i hsame
      subst hsame
      simp [h.registered, hk, hclosed]
    · exact h.registered c'
  gone c' u hu := by
    rw [System.setConsole, getElem?_set_of_some hk] at hu
    split at hu
    · obtain rfl := Option.some.inj hu
      rw [hclosed, hphase]
      exact h.gone c k hk
    · exact h.gone c' u hu
  numbered := h.numbered
  ranged := h.ranged
  done := h.done
  held := h.held

theorem Guarded.setPublication {p' : Publication} (h : Guarded s)
    (hp : s.publications[n]? = some p) (hpayload : p'.payload = p.payload)
    (haudience : p'.audience = p.audience) (hremaining : p'.remaining ⊆ p.remaining)
    (hfinished : p'.finished = p.finished ∨ p'.remaining = ∅ ∧ p'.finished = true) :
    Guarded (s.setPublication n p') := by
  have hcases : ∀ m q, (s.publications.set n p')[m]? = some q → m = n ∧ q = p' ∨
      s.publications[m]? = some q := by
    intro m q hq
    rw [getElem?_set_of_some hp] at hq
    split at hq
    · rename_i hsame
      exact Or.inl ⟨hsame.symm, (Option.some.inj hq).symm⟩
    · exact Or.inr hq
  refine ⟨h.calm, h.registered, h.gone, fun m q hq => ?_, fun m q hq => ?_, fun m q hq hdone => ?_,
    fun m q hq hdone => ?_⟩
  · rcases hcases m q hq with ⟨rfl, rfl⟩ | hold
    · rw [hpayload]
      exact h.numbered _ p hp
    · exact h.numbered m q hold
  · rcases hcases m q hq with ⟨rfl, rfl⟩ | hold
    · rw [haudience]
      exact hremaining.trans (h.ranged _ p hp)
    · exact h.ranged m q hold
  · rcases hcases m q hq with ⟨rfl, rfl⟩ | hold
    · rcases hfinished with hsame | ⟨hempty, -⟩
      · have hold := h.done _ p hp (hsame ▸ hdone)
        exact Finset.subset_empty.mp (hold ▸ hremaining)
      · exact hempty
    · exact h.done m q hold hdone
  · rcases hcases m q hq with ⟨rfl, rfl⟩ | hold
    · rcases hfinished with hsame | ⟨-, hfinished⟩
      · rw [haudience]
        exact h.held _ p hp (hsame ▸ hdone)
      · simp [hfinished] at hdone
    · exact h.held m q hold hdone

/-- Whoever is still to be visited has an open channel. -/
theorem Guarded.open_of_remaining (h : Guarded s) (hp : s.publications[n]? = some p)
    (hmem : c ∈ p.remaining) : ∃ k, s.consoles[c]? = some k ∧ k.channel.closed = false := by
  rw [← h.registered]
  refine h.held n p hp ?_ (h.ranged n p hp hmem)
  by_contra hfinished
  rw [h.done n p hp (by simpa using hfinished)] at hmem
  exact absurd hmem (Finset.notMem_empty c)

theorem Guarded.subscribe (h : Guarded s) (hfree : s.readLocked = false) : Guarded { s with
    subscribers := insert s.consoles.length s.subscribers
    consoles := s.consoles ++ [⟨.make, .subscribed, []⟩] } where
  calm := h.calm
  registered c := by
    rcases lt_trichotomy c s.consoles.length with hlt | rfl | hgt
    · simp [List.getElem?_append_left hlt, hlt.ne, h.registered]
    · simp
    · have hnone : (s.consoles ++ [⟨.make, .subscribed, []⟩])[c]? = none := by
        rw [List.getElem?_eq_none]
        rw [List.length_append, List.length_singleton]
        exact hgt
      simp [hnone, hgt.ne', h.registered, List.getElem?_eq_none hgt.le]
  gone c k hk := by
    rcases getElem?_concat_of_some hk with hold | ⟨-, rfl⟩
    · exact h.gone c k hold
    · simp
  numbered := h.numbered
  ranged := h.ranged
  done := h.done
  held n p hp hdone := by
    rw [finished_of_free hfree hp] at hdone
    cases hdone

theorem Guarded.publish (h : Guarded s) (event : Event) : Guarded (s.publish event) where
  calm := h.calm
  registered := h.registered
  gone := h.gone
  numbered n p hp := by
    rcases getElem?_concat_of_some hp with hold | ⟨rfl, rfl⟩
    · exact h.numbered n p hold
    · rfl
  ranged n p hp := by
    rcases getElem?_concat_of_some hp with hold | ⟨-, rfl⟩
    · exact h.ranged n p hold
    · exact Finset.Subset.refl _
  done n p hp hdone := by
    rcases getElem?_concat_of_some hp with hold | ⟨-, rfl⟩
    · exact h.done n p hold hdone
    · cases hdone
  held n p hp hdone := by
    rcases getElem?_concat_of_some hp with hold | ⟨-, rfl⟩
    · exact h.held n p hold hdone
    · exact Finset.Subset.refl _

theorem Guarded.unsubscribe (h : Guarded s) (hk : s.consoles[c]? = some k)
    (hfree : s.readLocked = false) : Guarded
      { s.setConsole c { k with phase := .gone, channel := k.channel.close } with
        subscribers := s.subscribers.erase c } where
  calm := h.calm
  registered c' := by
    rw [Finset.mem_erase, System.setConsole, getElem?_set_of_some hk, h.registered]
    by_cases hsame : c = c'
    · simp [hsame]
    · simp [hsame, Ne.symm hsame]
  gone c' u hu := by
    rw [System.setConsole, getElem?_set_of_some hk] at hu
    split at hu
    · obtain rfl := Option.some.inj hu
      simp
    · exact h.gone c' u hu
  numbered := h.numbered
  ranged := h.ranged
  done := h.done
  held n p hp hdone := by
    rw [finished_of_free hfree hp] at hdone
    cases hdone

theorem Guarded.step (h : Guarded s) (a : Action) : Guarded (Broker.step s a) := by
  have htook := took_step s a
  generalize Broker.step s a = s' at htook
  cases htook with
  | idle => exact h
  | subscribed hfree => exact h.subscribe hfree
  | published event => exact h.publish event
  | offered number c p k hp hk hremaining hopen =>
      have hset : Guarded
          (s.setPublication number { p with remaining := p.remaining.erase c }) :=
        h.setPublication hp rfl rfl (Finset.erase_subset c _) (Or.inl rfl)
      exact hset.setConsole hk Channel.closed_offer Iff.rfl
  | panicked number c p k hp hk hremaining hclosed =>
      obtain ⟨u, hu, hopen⟩ := h.open_of_remaining hp hremaining
      rw [hk, Option.some.injEq] at hu
      rw [hu, hopen] at hclosed
      cases hclosed
  | finished number p hp hdone =>
      exact h.setPublication hp rfl rfl (Finset.Subset.refl _) (Or.inr ⟨hdone, rfl⟩)
  | moved _ c k k' change s' hnone hk hmoves hs' =>
      have hphase := phase_moves hmoves
      have hset : Guarded (s.setConsole c k') :=
        h.setConsole hk (closed_moves hmoves) (iff_of_false hphase.2 hphase.1)
      rw [hs']
      exact { hset with }
  | unsubscribed c k hk hfree hphase hmem => exact h.unsubscribe hk hfree
  | unsubscribedAgain c k hk hphase hmem =>
      refine absurd ((h.registered c).mpr ⟨k, hk, ?_⟩) hmem
      have hgone := h.gone c k hk
      rw [hphase] at hgone
      simpa using hgone

theorem guarded_of_reachable (h : Reachable Broker.step System.new s) : Guarded s :=
  Reachable.invariant Guarded.new (fun _ a _ hs => hs.step a) h

end Guards

/-- The same publication, later. -/
structure Advances (p p' : Publication) : Prop where
  payload : p'.payload = p.payload
  audience : p'.audience = p.audience
  remaining : p'.remaining ⊆ p.remaining

section Publications

variable {s s' : System} {a : Action} {c n number i j : Nat} {k : Console} {p : Publication}
  {x : Payload} {actions : List Action}

theorem Advances.refl (p : Publication) : Advances p p :=
  ⟨rfl, rfl, Finset.Subset.refl _⟩

theorem Advances.trans {p' p'' : Publication} (h : Advances p p') (h' : Advances p' p'') :
    Advances p p'' :=
  ⟨h'.payload.trans h.payload, h'.audience.trans h.audience, h'.remaining.trans h.remaining⟩

theorem advances_setPublication {p' : Publication} (hp : s.publications[n]? = some p)
    (h : Advances p p') {m : Nat} {q : Publication} (hq : s.publications[m]? = some q) :
    ∃ q', (s.publications.set n p')[m]? = some q' ∧ Advances q q' := by
  rw [getElem?_set_of_some hp]
  split
  · rename_i hsame
    subst hsame
    obtain rfl : p = q := Option.some.inj (hp.symm.trans hq)
    exact ⟨p', rfl, h⟩
  · exact ⟨q, hq, .refl q⟩

theorem advances_step (hp : s.publications[n]? = some p) (a : Action) :
    ∃ p', (step s a).publications[n]? = some p' ∧ Advances p p' := by
  have htook := took_step s a
  generalize step s a = s' at htook
  cases htook with
  | idle | subscribed | panicked | unsubscribed | unsubscribedAgain => exact ⟨p, hp, .refl p⟩
  | moved _ c k k' change _ hnone hk hmoves hs' =>
      rw [hs']
      exact ⟨p, hp, .refl p⟩
  | published event =>
      refine ⟨p, ?_, .refl p⟩
      obtain ⟨hlt, -⟩ := List.getElem?_eq_some_iff.mp hp
      rw [← hp]
      exact List.getElem?_append_left hlt
  | offered number c q k hq hk hremaining hopen =>
      have hadvances : Advances q { q with remaining := q.remaining.erase c } :=
        ⟨rfl, rfl, Finset.erase_subset c _⟩
      exact advances_setPublication hq hadvances hp
  | finished number q hq hdone =>
      have hadvances : Advances q { q with finished := true } :=
        ⟨rfl, rfl, Finset.Subset.refl _⟩
      exact advances_setPublication hq hadvances hp

theorem advances_stateAt (hij : i ≤ j)
    (hp : (stateAt step System.new actions i).publications[n]? = some p) :
    ∃ p', (stateAt step System.new actions j).publications[n]? = some p' ∧ Advances p p' := by
  refine stateAt_mono (P := fun s : System => ∃ p', s.publications[n]? = some p' ∧ Advances p p')
    ?_ hij ⟨p, hp, .refl p⟩
  rintro s a ⟨p', hp', hadvances⟩
  obtain ⟨p'', hp'', hnext⟩ := advances_step hp' a
  exact ⟨p'', hp'', hadvances.trans hnext⟩

/-- The action is the round in which the publisher turns to the console. -/
structure Offers (s : System) (a : Action) (number c : Nat) : Prop where
  action : a = .offer number c
  remaining : ∃ p : Publication, s.publications[number]? = some p ∧ c ∈ p.remaining

/-- How many payloads wait in the channel of the console. -/
def unread (s : System) (c : Nat) : Nat :=
  (s.consoles[c]?).elim 0 fun k => k.channel.buffer.length

theorem unread_of_some (hk : s.consoles[c]? = some k) : unread s c = k.channel.buffer.length := by
  rw [unread, hk, Option.elim_some]

/-- Only in its round does a console come off the list of a publisher. -/
theorem remaining_step (hp : s.publications[n]? = some p) (hremaining : c ∈ p.remaining)
    (a : Action) : (∃ p' : Publication, (step s a).publications[n]? = some p' ∧
      c ∈ p'.remaining) ∨ Offers s a n c := by
  by_cases hoffers : Offers s a n c
  · exact Or.inr hoffers
  refine Or.inl ?_
  have htook := took_step s a
  generalize step s a = s' at htook
  cases htook with
  | idle | subscribed | panicked | unsubscribed | unsubscribedAgain => exact ⟨p, hp, hremaining⟩
  | moved _ c k k' change _ hnone hk hmoves hs' =>
      rw [hs']
      exact ⟨p, hp, hremaining⟩
  | published event =>
      refine ⟨p, ?_, hremaining⟩
      obtain ⟨hlt, -⟩ := List.getElem?_eq_some_iff.mp hp
      rw [← hp]
      exact List.getElem?_append_left hlt
  | offered number c' q k hq hk hq' hopen =>
      simp only [System.setConsole, System.setPublication, getElem?_set_of_some hq]
      split
      · rename_i hsame
        subst hsame
        obtain rfl : p = q := Option.some.inj (hp.symm.trans hq)
        refine ⟨_, rfl, Finset.mem_erase.mpr ⟨?_, hremaining⟩⟩
        rintro rfl
        exact hoffers ⟨rfl, p, hp, hremaining⟩
      · exact ⟨p, hp, hremaining⟩
  | finished number q hq hdone =>
      simp only [System.setPublication, getElem?_set_of_some hq]
      split
      · rename_i hsame
        subst hsame
        obtain rfl : p = q := Option.some.inj (hp.symm.trans hq)
        exact ⟨_, rfl, hremaining⟩
      · exact ⟨p, hp, hremaining⟩

/-- A console gets the payload of a publisher that turns to it, if its channel has room. -/
theorem mem_accepted_iff (hguarded : Guarded s) : x ∈ accepted s a c ↔
    Offers s a x.number c ∧ unread s c < 32 ∧
      ∃ p : Publication, s.publications[x.number]? = some p ∧ p.payload = x := by
  constructor
  · intro hx
    unfold accepted at hx
    split at hx
    · rename_i number c'
      split at hx
      · rename_i p k hp hk
        split at hx
        · rename_i hcan
          obtain ⟨rfl, hremaining, -⟩ := hcan
          obtain ⟨rfl, hroom⟩ := Channel.mem_taken_iff.mp hx
          have hnumber := hguarded.numbered number p hp
          rw [hnumber]
          exact ⟨⟨rfl, p, hp, hremaining⟩, by rwa [unread_of_some hk], p, hp, rfl⟩
        · cases hx
      · cases hx
    · cases hx
  · rintro ⟨⟨rfl, p, hp, hremaining⟩, hroom, q, hq, rfl⟩
    obtain rfl : p = q := Option.some.inj (hp.symm.trans hq)
    obtain ⟨k, hk, hopen⟩ := hguarded.open_of_remaining hp hremaining
    rw [unread_of_some hk] at hroom
    simp [accepted, hp, hk, hremaining, hopen, Channel.mem_taken_iff, hroom]

/-- After its round the publisher does not turn to the console again. -/
theorem Offers.advances (hguarded : Guarded s) (h : Offers s a number c) :
    ∃ p : Publication, (step s a).publications[number]? = some p ∧ c ∉ p.remaining := by
  obtain ⟨rfl, p, hp, hremaining⟩ := h
  obtain ⟨k, hk, hopen⟩ := hguarded.open_of_remaining hp hremaining
  refine ⟨{ p with remaining := p.remaining.erase c }, ?_, Finset.notMem_erase c _⟩
  simp [step, System.onPublication, System.onConsole, System.offer, hp, hk, hremaining, hopen,
    System.setConsole, System.setPublication, getElem?_set_of_some hp]

end Publications

/-- Whatever has been sent to a console is a publication that it was subscribed to
when it began, and no publication is sent to it twice. -/
structure Delivered (s : System) : Prop where
  came : ∀ c, ∀ x ∈ receivedBy s c, ∃ p : Publication,
    s.publications[x.number]? = some p ∧ p.payload = x ∧ c ∈ p.audience ∧ c ∉ p.remaining
  once : ∀ c, ((receivedBy s c).map Payload.number).Nodup

section Runs

variable {s : System} {a : Action} {c n number i j k : Nat} {p q : Publication} {x : Payload}
  {actions : List Action}

theorem accepted_eq (s : System) (a : Action) (c : Nat) :
    accepted s a c = [] ∨ ∃ x, accepted s a c = [x] := by
  unfold accepted Channel.taken
  repeat' split
  all_goals simp

theorem Delivered.new : Delivered System.new where
  came c x hx := by simp [receivedBy, System.new] at hx
  once c := by simp [receivedBy, System.new]

theorem Delivered.step (h : Delivered s) (hguarded : Guarded s) (a : Action) :
    Delivered (Broker.step s a) where
  came c x hx := by
    rw [receivedBy_step] at hx
    rcases List.mem_append.mp hx with hold | hnew
    · obtain ⟨p, hp, hpayload, haudience, hvisited⟩ := h.came c x hold
      obtain ⟨p', hp', hadvances⟩ := advances_step hp a
      exact ⟨p', hp', hadvances.payload.trans hpayload, hadvances.audience ▸ haudience,
        fun hmem => hvisited (hadvances.remaining hmem)⟩
    · obtain ⟨hoffers, -, q, hq, hpayload⟩ := (mem_accepted_iff hguarded).mp hnew
      obtain ⟨p, hp, hremaining⟩ := hoffers.remaining
      obtain ⟨p', hp', hadvances⟩ := advances_step hp a
      obtain ⟨p'', hp'', hvisited⟩ := hoffers.advances hguarded
      obtain rfl : p' = p'' := Option.some.inj (hp'.symm.trans hp'')
      obtain rfl : p = q := Option.some.inj (hp.symm.trans hq)
      exact ⟨p', hp', hadvances.payload.trans hpayload,
        hadvances.audience ▸ hguarded.ranged _ p hp hremaining, hvisited⟩
  once c := by
    rw [receivedBy_step]
    rcases accepted_eq s a c with hnone | ⟨x, hx⟩
    · rw [hnone, List.append_nil]
      exact h.once c
    · have hoffers := ((mem_accepted_iff hguarded).mp (hx ▸ List.mem_singleton_self x)).1
      obtain ⟨p, hp, hremaining⟩ := hoffers.remaining
      rw [hx, List.map_append, List.map_singleton, ← List.concat_eq_append]
      refine List.nodup_concat _ _ |>.mpr ⟨fun hmem => ?_, h.once c⟩
      -- what the console already has, its publisher has been through with
      obtain ⟨y, hy, hnumber⟩ := List.mem_map.mp hmem
      obtain ⟨q, hq, -, -, hvisited⟩ := h.came c y hy
      rw [hnumber, hp] at hq
      exact hvisited (Option.some.inj hq ▸ hremaining)

theorem delivered_of_reachable (h : Reachable step System.new s) : Delivered s :=
  Reachable.invariant Delivered.new
    (fun _ a hreachable hs => hs.step (guarded_of_reachable hreachable) a) h

/-- What is sent to a console later comes behind what it has, at steps that send it. -/
theorem receivedBy_stateAt (hij : i ≤ j) (hj : j ≤ actions.length) (c : Nat) :
    ∃ later, receivedBy (stateAt step System.new actions j) c =
        receivedBy (stateAt step System.new actions i) c ++ later ∧
      ∀ x ∈ later, ∃ k, ∃ hk : k < actions.length, i ≤ k ∧ k < j ∧
        x ∈ accepted (stateAt step System.new actions k) actions[k] c := by
  induction j, hij using Nat.le_induction with
  | base => exact ⟨[], (List.append_nil _).symm, fun x hx => absurd hx List.not_mem_nil⟩
  | succ j hij ih =>
      obtain ⟨later, hlater, hsent⟩ := ih (by omega)
      refine ⟨later ++ accepted (stateAt step System.new actions j) actions[j] c, ?_,
        fun x hx => ?_⟩
      · rw [stateAt_succ (by omega), receivedBy_step, hlater, List.append_assoc]
      · rcases List.mem_append.mp hx with hx | hx
        · obtain ⟨k, hk, hik, hkj, hx⟩ := hsent x hx
          exact ⟨k, hk, hik, by omega, hx⟩
        · exact ⟨j, by omega, hij, by omega, hx⟩

/-- The publisher turns to the console in step number `k` of the run. -/
def OffersAt (actions : List Action) (k number c : Nat) : Prop :=
  ∃ hk : k < actions.length, Offers (stateAt step System.new actions k) actions[k] number c

/-- A publisher is through with a console from its round on. -/
theorem visited_of_offersAt (h : OffersAt actions k number c) (hkj : k < j)
    (hp : (stateAt step System.new actions j).publications[number]? = some p) :
    c ∉ p.remaining := by
  obtain ⟨hk, hoffers⟩ := h
  obtain ⟨q, hq, hvisited⟩ := hoffers.advances
    (guarded_of_reachable (reachable_stateAt actions k))
  have hafter : (stateAt step System.new actions (k + 1)).publications[number]? = some q := by
    rw [stateAt_succ hk]
    exact hq
  obtain ⟨q', hq', hadvances⟩ := advances_stateAt hkj hafter
  obtain rfl : q' = p := Option.some.inj (hq'.symm.trans hp)
  exact fun hmem => hvisited (hadvances.remaining hmem)

/-- A publisher turns to each console once. -/
theorem OffersAt.unique {l : Nat} (h : OffersAt actions k number c)
    (h' : OffersAt actions l number c) : k = l := by
  rcases lt_trichotomy k l with hlt | rfl | hgt
  · obtain ⟨hl, -, p, hp, hremaining⟩ := h'
    exact absurd hremaining (visited_of_offersAt h hlt hp)
  · rfl
  · obtain ⟨hk, -, p, hp, hremaining⟩ := h
    exact absurd hremaining (visited_of_offersAt h' hgt hp)

/-- Whom a publisher still had to visit and has visited since, it turned to in between. -/
theorem exists_offersAt (hij : i ≤ j) (hj : j ≤ actions.length)
    (hp : (stateAt step System.new actions i).publications[number]? = some p)
    (hremaining : c ∈ p.remaining)
    (hq : (stateAt step System.new actions j).publications[number]? = some q)
    (hvisited : c ∉ q.remaining) : ∃ k, i ≤ k ∧ k < j ∧ OffersAt actions k number c := by
  obtain ⟨k, hik, hkj, ⟨u, hu, hbefore⟩, hafter⟩ := exists_step_between
    (P := fun s : System => ∃ u : Publication, s.publications[number]? = some u ∧ c ∈ u.remaining)
    hij ⟨p, hp, hremaining⟩ (by
      rintro ⟨u, hu, hmem⟩
      obtain rfl : q = u := Option.some.inj (hq.symm.trans hu)
      exact hvisited hmem)
  have hk : k < actions.length := by omega
  refine ⟨k, hik, hkj, hk, ?_, u, hu, hbefore⟩
  rw [stateAt_succ hk] at hafter
  rcases remaining_step hu hbefore actions[k] with hkept | hoffers
  · exact absurd hkept hafter
  · exact hoffers.action

theorem publication_publish (s : System) (event : Event) :
    (step s (.publish event)).publications[s.publications.length]? = some
      ⟨⟨s.publications.length, marshal event.json⟩, s.subscribers, s.subscribers, false⟩ :=
  List.getElem?_concat_length

end Runs

/-- The steps of a console keep the stream in shape: it opens with the comment that
it is connected, and what follows are updates and comments. -/
structure Framed (s : System) : Prop where
  opened : ∀ (c : Nat) (k : Console), s.consoles[c]? = some k → k.phase ≠ .subscribed →
    ∃ rest, k.body = .connected :: rest ∧ .connected ∉ rest ∧ .empty ∉ rest
  silent : ∀ (c : Nat) (k : Console), s.consoles[c]? = some k → k.phase = .subscribed →
    k.body = []
  counted : s.connections = s.consoles.countP fun k => decide (k.phase = .streaming)

section Frames

variable {s s' : System} {c number : Nat} {k k' : Console} {p : Publication} {change : Int}

theorem Framed.new : Framed System.new where
  opened c k h := by simp [System.new] at h
  silent c k h := by simp [System.new] at h
  counted := rfl

/-- A step of a console that keeps its own stream in shape. -/
theorem Framed.setConsole (h : Framed s) (hk : s.consoles[c]? = some k)
    (hopened : k'.phase ≠ .subscribed →
      ∃ rest, k'.body = .connected :: rest ∧ .connected ∉ rest ∧ .empty ∉ rest)
    (hsilent : k'.phase = .subscribed → k'.body = [])
    (hchange : change = (if k'.phase = .streaming then 1 else 0) -
      (if k.phase = .streaming then 1 else 0)) :
    Framed { s.setConsole c k' with connections := s.connections + change } where
  opened c' u hu := by
    simp only [System.setConsole, getElem?_set_of_some hk] at hu
    split at hu
    · obtain rfl := Option.some.inj hu
      exact hopened
    · exact h.opened c' u hu
  silent c' u hu := by
    simp only [System.setConsole, getElem?_set_of_some hk] at hu
    split at hu
    · obtain rfl := Option.some.inj hu
      exact hsilent
    · exact h.silent c' u hu
  counted := by
    obtain ⟨hlt, rfl⟩ := List.getElem?_eq_some_iff.mp hk
    have hpositive : (if s.consoles[c].phase = .streaming then 1 else 0) ≤
        s.consoles.countP fun k => decide (k.phase = .streaming) := by
      split
      · exact List.countP_pos_iff.mpr ⟨_, List.getElem_mem hlt, by simpa⟩
      · exact Nat.zero_le _
    have hset := List.countP_set (p := fun k : Console => decide (k.phase = .streaming)) hlt
      (a := k')
    change s.connections + change = ((s.consoles.set c k').countP _ : Int)
    rw [hset, hchange, h.counted]
    simp only [decide_eq_true_eq]
    split_ifs at hpositive ⊢ <;> omega

theorem Framed.congr (h : Framed s) (hconsoles : s'.consoles = s.consoles)
    (hconnections : s'.connections = s.connections) : Framed s' := by
  refine ⟨?_, ?_, ?_⟩
  · rw [hconsoles]
    exact h.opened
  · rw [hconsoles]
    exact h.silent
  · rw [hconsoles, hconnections]
    exact h.counted

/-- A step that does not touch the gauge. -/
theorem Framed.keep (h : Framed s) (hk : s.consoles[c]? = some k) (hbody : k'.body = k.body)
    (hsubscribed : k'.phase = .subscribed ↔ k.phase = .subscribed)
    (hstreaming : k'.phase = .streaming ↔ k.phase = .streaming) : Framed (s.setConsole c k') := by
  have hset : Framed { s.setConsole c k' with connections := s.connections + 0 } := by
    refine h.setConsole hk (fun hne => ?_) (fun heq => ?_) ?_
    · rw [hbody]
      exact h.opened c k hk (mt hsubscribed.mpr hne)
    · rw [hbody]
      exact h.silent c k hk (hsubscribed.mp heq)
    · simp [hstreaming]
  exact hset.congr rfl (by simp [System.setConsole])

theorem Framed.moves (h : Framed s) (hguarded : Guarded s) (hk : s.consoles[c]? = some k)
    (hmoves : Moves k k' change) :
    Framed { s.setConsole c k' with connections := s.connections + change } := by
  have hgone := hguarded.gone c k hk
  -- a streaming console goes on with one more frame
  have goes_on : ∀ f : Frame, f ≠ .connected → f ≠ .empty → k.phase = .streaming →
      ∃ rest, k.body ++ [f] = .connected :: rest ∧ .connected ∉ rest ∧ .empty ∉ rest := by
    intro f hconnected hempty hphase
    obtain ⟨rest, hbody, hconnected', hempty'⟩ := h.opened c k hk (by simp [hphase])
    refine ⟨rest ++ [f], by rw [hbody, List.cons_append], ?_, ?_⟩
    · simp [hconnected', hconnected.symm]
    · simp [hempty', hempty.symm]
  cases hmoves with
  | connected hphase =>
      refine h.setConsole hk (fun _ => ⟨[], ?_, List.not_mem_nil, List.not_mem_nil⟩) ?_ ?_
      · rw [h.silent c k hk hphase]
        rfl
      · exact fun hsubscribed => absurd hsubscribed (by simp)
      · simp [hphase]
  | received payload rest hphase hbuffer =>
      exact h.setConsole hk (fun _ => goes_on _ (by simp) (by simp) hphase)
        (fun hsubscribed => by simp [hphase] at hsubscribed) (by simp)
  | receivedEmpty hphase hclosed => simp [hgone.mp hclosed] at hphase
  | keptAlive hphase =>
      exact h.setConsole hk (fun _ => goes_on _ (by simp) (by simp) hphase)
        (fun hsubscribed => by simp [hphase] at hsubscribed) (by simp)
  | disconnected hphase =>
      exact h.setConsole hk (fun _ => h.opened c k hk (by simp [hphase]))
        (fun hsubscribed => by simp at hsubscribed) (by simp [hphase])

theorem Framed.step (h : Framed s) (hguarded : Guarded s) (a : Action) :
    Framed (Broker.step s a) := by
  have htook := took_step s a
  generalize Broker.step s a = s' at htook
  cases htook with
  | idle => exact h
  | subscribed hfree =>
      refine ⟨fun c k hk hphase => ?_, fun c k hk hphase => ?_, ?_⟩
      · rcases getElem?_concat_of_some hk with hold | ⟨-, rfl⟩
        · exact h.opened c k hold hphase
        · exact absurd rfl hphase
      · rcases getElem?_concat_of_some hk with hold | ⟨-, rfl⟩
        · exact h.silent c k hold hphase
        · rfl
      · simpa [List.countP_append] using h.counted
  | published | panicked | finished => exact ⟨h.opened, h.silent, h.counted⟩
  | offered number c p k hp hk hremaining hopen =>
      have hset : Framed (s.setPublication number { p with remaining := p.remaining.erase c }) :=
        ⟨h.opened, h.silent, h.counted⟩
      exact hset.keep hk rfl Iff.rfl Iff.rfl
  | moved _ c k k' change _ hnone hk hmoves hs' =>
      rw [hs']
      exact h.moves hguarded hk hmoves
  | unsubscribed c k hk hfree hphase hmem =>
      have hset : Framed (s.setConsole c { k with phase := .gone, channel := k.channel.close }) :=
        h.keep hk rfl (by simp [hphase]) (by simp [hphase])
      exact hset.congr rfl rfl
  | unsubscribedAgain c k hk hphase hmem =>
      exact h.keep hk rfl (by simp [hphase]) (by simp [hphase])

theorem framed_of_reachable (h : Reachable Broker.step System.new s) : Framed s :=
  Reachable.invariant Framed.new
    (fun _ a hreachable hs => hs.step (guarded_of_reachable hreachable) a) h

end Frames

section Progress

variable {s : System} {number : Nat} {p : Publication}

theorem finish_publication (hp : s.publications[number]? = some p) (hdone : p.remaining = ∅) :
    (step s (.finish number)).publications[number]? = some { p with finished := true } := by
  simp [step, System.onPublication, hp, System.finish, hdone, System.setPublication,
    getElem?_set_of_some hp]

/-- A publisher comes to its end in its own rounds, whether or not any console reads. -/
theorem exists_rounds (hreachable : Reachable step System.new s)
    (hp : s.publications[number]? = some p) : ∃ rounds : List Action,
      rounds.length = p.remaining.card ∧ (∀ a ∈ rounds, ∃ c ∈ p.remaining, a = .offer number c) ∧
        ∃ q : Publication, (run step s (rounds ++ [.finish number])).publications[number]? =
          some q ∧ q.finished = true := by
  induction hcard : p.remaining.card generalizing s p with
  | zero =>
      refine ⟨[], rfl, fun a ha => absurd ha List.not_mem_nil, _,
        finish_publication hp (Finset.card_eq_zero.mp hcard), rfl⟩
  | succ n ih =>
      obtain ⟨c, hc⟩ : p.remaining.Nonempty := by
        rw [← Finset.card_pos]
        omega
      have hguarded := guarded_of_reachable hreachable
      obtain ⟨k, hk, hopen⟩ := hguarded.open_of_remaining hp hc
      have hround : (step s (.offer number c)).publications[number]? =
          some { p with remaining := p.remaining.erase c } := by
        simp [step, System.onPublication, System.onConsole, System.offer, hp, hk, hc, hopen,
          System.setConsole, System.setPublication, getElem?_set_of_some hp]
      obtain ⟨rounds, hlength, hrounds, q, hq, hfinished⟩ := ih (hreachable.next _) hround
        (by rw [Finset.card_erase_of_mem hc, hcard]; rfl)
      refine ⟨.offer number c :: rounds, by rw [List.length_cons, hlength], fun a ha => ?_, q, hq,
        hfinished⟩
      rcases List.mem_cons.mp ha with rfl | ha
      · exact ⟨c, hc, rfl⟩
      · obtain ⟨c', hc', rfl⟩ := hrounds a ha
        exact ⟨c', Finset.mem_of_mem_erase hc', rfl⟩

end Progress

/-- However publishers, consoles and subscriptions interleave, nothing is sent on a
closed channel, no console reads from one, and the gauge counts the consoles that stream.
What a console has written and what waits for it are publications that began while it was
subscribed, none of them twice, and a publisher that has begun ends by itself. -/
theorem broker_is_safe (actions : List Action) :
    let s := run step System.new actions
    s.panicked = false ∧
      s.connections = s.consoles.countP (fun k => decide (k.phase = .streaming)) ∧
      (∀ (c : Nat) (k : Console), s.consoles[c]? = some k → .empty ∉ k.body ∧
        ((received k).map Payload.number).Nodup ∧ ∀ x ∈ received k, ∃ p : Publication,
          s.publications[x.number]? = some p ∧ p.payload = x ∧ c ∈ p.audience) ∧
      ∀ (number : Nat) (p : Publication), s.publications[number]? = some p →
        ∃ rounds : List Action, rounds.length = p.remaining.card ∧
          (∀ a ∈ rounds, ∃ c ∈ p.remaining, a = .offer number c) ∧
          ∃ q : Publication, (run step s (rounds ++ [.finish number])).publications[number]? =
            some q ∧ q.finished = true := by
  intro s
  have hreachable : Reachable step System.new s := ⟨actions, rfl⟩
  have hguarded := guarded_of_reachable hreachable
  have hdelivered := delivered_of_reachable hreachable
  have hframed := framed_of_reachable hreachable
  refine ⟨hguarded.calm, hframed.counted, fun c k hk => ?_, fun number p hp =>
    exists_rounds hreachable hp⟩
  refine ⟨?_, ?_, fun x hx => ?_⟩
  · by_cases hphase : k.phase = .subscribed
    · rw [hframed.silent c k hk hphase]
      exact List.not_mem_nil
    · obtain ⟨rest, hbody, -, hempty⟩ := hframed.opened c k hk hphase
      rw [hbody]
      simpa using hempty
  · rw [← receivedBy_of_some hk]
    exact hdelivered.once c
  · rw [← receivedBy_of_some hk] at hx
    obtain ⟨p, hp, hpayload, haudience, -⟩ := hdelivered.came c x hx
    exact ⟨p, hp, hpayload, haudience⟩

/-- A publication that has finished is ahead of one that has not begun, on every console. -/
theorem publications_stay_in_order {actions : List Action} {i n first second : Nat}
    {p : Publication} (hin : i ≤ n) (hn : n ≤ actions.length)
    (hfirst : (stateAt step System.new actions i).publications[first]? = some p)
    (hfinished : p.finished = true)
    (hsecond : (stateAt step System.new actions i).publications.length ≤ second) (c : Nat) :
    ∃ earlier later, receivedBy (stateAt step System.new actions n) c = earlier ++ later ∧
      second ∉ earlier.map Payload.number ∧ first ∉ later.map Payload.number := by
  have hreachable : Reachable step System.new (stateAt step System.new actions i) :=
    reachable_stateAt actions i
  obtain ⟨later, hlater, hsent⟩ := receivedBy_stateAt hin hn c
  refine ⟨_, later, hlater, fun hmem => ?_, fun hmem => ?_⟩
  · obtain ⟨x, hx, rfl⟩ := List.mem_map.mp hmem
    obtain ⟨q, hq, -⟩ := (delivered_of_reachable hreachable).came c x hx
    rw [List.getElem?_eq_none hsecond] at hq
    cases hq
  · obtain ⟨x, hx, rfl⟩ := List.mem_map.mp hmem
    obtain ⟨k, hk, hik, -, hx⟩ := hsent x hx
    have hguarded := guarded_of_reachable (reachable_stateAt actions k)
    obtain ⟨q, hq, hremaining⟩ := ((mem_accepted_iff hguarded).mp hx).1.remaining
    obtain ⟨q', hq', hadvances⟩ := advances_stateAt hik hfirst
    obtain rfl : q = q' := Option.some.inj (hq.symm.trans hq')
    have hempty := (guarded_of_reachable hreachable).done _ p hfirst hfinished
    exact Finset.notMem_empty c (hempty ▸ hadvances.remaining hremaining)

/-- One console, two publications. -/
def twoUpdates : List Action :=
  [.subscribe, .connect 0, .publish ⟨"monitor.updated", "2025-01-01T00:00:00Z", none⟩, .offer 0 0,
   .finish 0, .publish ⟨"monitor.updated", "2025-01-01T00:00:01Z", none⟩, .offer 1 0, .finish 1,
   .receive 0]

theorem publications_stay_in_order_twoUpdates : ∃ earlier later,
    receivedBy (stateAt step System.new twoUpdates 9) 0 = earlier ++ later ∧
      1 ∉ earlier.map Payload.number ∧ 0 ∉ later.map Payload.number := by
  obtain ⟨p, hp, hfinished⟩ : ∃ p : Publication,
      (stateAt step System.new twoUpdates 5).publications[0]? = some p ∧ p.finished = true :=
    ⟨_, rfl, rfl⟩
  exact publications_stay_in_order (by decide) (by decide) hp hfinished (by decide +kernel) 0

/-- A publication that has finished was offered once to every console that was
subscribed when it began and to no other, and a console misses it only when
thirty-two payloads were waiting for it. -/
theorem every_subscriber_is_offered_it {actions : List Action} {i n : Nat} {event : Event}
    {p : Publication} (hi : i < n) (hn : n ≤ actions.length)
    (hpublish : actions[i] = .publish event)
    (hp : (stateAt step System.new actions n).publications[
      (stateAt step System.new actions i).publications.length]? = some p)
    (hfinished : p.finished = true) (c : Nat) :
    let number := (stateAt step System.new actions i).publications.length
    (c ∉ (stateAt step System.new actions i).subscribers → ∀ k, ¬ OffersAt actions k number c) ∧
    (c ∈ (stateAt step System.new actions i).subscribers → ∃ k, i < k ∧ k < n ∧
      OffersAt actions k number c ∧ (∀ l, OffersAt actions l number c → l = k) ∧
      (⟨number, marshal event.json⟩ ∈ receivedBy (stateAt step System.new actions n) c ↔
        unread (stateAt step System.new actions k) c < 32)) := by
  intro number
  have hlength : i < actions.length := hi.trans_le hn
  let begun : Publication :=
    ⟨⟨number, marshal event.json⟩, (stateAt step System.new actions i).subscribers,
    (stateAt step System.new actions i).subscribers, false⟩
  have hbegun : (stateAt step System.new actions (i + 1)).publications[number]? = some begun := by
    rw [stateAt_succ hlength, hpublish]
    exact publication_publish _ event
  -- no publisher turns to a console before the publication has begun
  have hafter : ∀ k, OffersAt actions k number c → i < k ∧
      c ∈ (stateAt step System.new actions i).subscribers := by
    rintro k ⟨hk, -, q, hq, hremaining⟩
    have hlt : i < k := by
      by_contra hle
      obtain ⟨q', hq', -⟩ := advances_stateAt (Nat.le_of_not_lt hle) hq
      rw [List.getElem?_eq_none le_rfl] at hq'
      cases hq'
    obtain ⟨q', hq', hadvances⟩ := advances_stateAt hlt hbegun
    obtain rfl : q = q' := Option.some.inj (hq.symm.trans hq')
    exact ⟨hlt, hadvances.remaining hremaining⟩
  refine ⟨fun hout k hoffers => hout (hafter k hoffers).2, fun hmem => ?_⟩
  have hempty := (guarded_of_reachable (reachable_stateAt actions n)).done _ p hp hfinished
  have hvisited : c ∉ p.remaining := by
    rw [hempty]
    exact Finset.notMem_empty c
  obtain ⟨k, hik, hkn, hoffers⟩ := exists_offersAt hi hn hbegun hmem hp hvisited
  refine ⟨k, hik, hkn, hoffers, fun l hl => hl.unique hoffers, fun hreceived => ?_, fun hroom => ?_⟩
  · obtain ⟨later, hlater, hsent⟩ := receivedBy_stateAt hi hn c
    rw [hlater] at hreceived
    rcases List.mem_append.mp hreceived with hbefore | hsince
    · obtain ⟨q, hq, -, -, hvisited⟩ := (delivered_of_reachable
        (reachable_stateAt actions (i + 1))).came c _ hbefore
      obtain rfl : begun = q := Option.some.inj (hbegun.symm.trans hq)
      exact absurd hmem hvisited
    · obtain ⟨l, hl, -, -, haccepted⟩ := hsent _ hsince
      have hguarded := guarded_of_reachable (reachable_stateAt actions l)
      obtain ⟨hturn, hroom, -⟩ := (mem_accepted_iff hguarded).mp haccepted
      obtain rfl : l = k := OffersAt.unique ⟨hl, hturn⟩ hoffers
      exact hroom
  · obtain ⟨hk, hturn⟩ := hoffers
    obtain ⟨q, hq, hadvances⟩ := advances_stateAt hik hbegun
    have hsent : (⟨number, marshal event.json⟩ : Payload) ∈
        accepted (stateAt step System.new actions k) actions[k] c :=
      (mem_accepted_iff (guarded_of_reachable (reachable_stateAt actions k))).mpr
        ⟨hturn, hroom, q, hq, hadvances.payload⟩
    obtain ⟨later, hlater, -⟩ := receivedBy_stateAt (Nat.succ_le_of_lt hkn) hn c
    rw [hlater, stateAt_succ hk, receivedBy_step]
    exact List.mem_append_left _ (List.mem_append_right _ hsent)

theorem every_subscriber_is_offered_it_twoUpdates :
    ∃ k, 2 < k ∧ k < 9 ∧ OffersAt twoUpdates k 0 0 ∧ (∀ l, OffersAt twoUpdates l 0 0 → l = k) := by
  obtain ⟨p, hp, hfinished⟩ : ∃ p : Publication,
      (stateAt step System.new twoUpdates 9).publications[
        (stateAt step System.new twoUpdates 2).publications.length]? = some p ∧
          p.finished = true :=
    ⟨_, rfl, rfl⟩
  have hoffered := (every_subscriber_is_offered_it (by decide : 2 < 9) (by decide) rfl hp
    hfinished 0).2 (by decide +kernel)
  obtain ⟨k, hik, hkn, hoffers, hunique, -⟩ := hoffered
  exact ⟨k, hik, hkn, hoffers, hunique⟩

end PriceScout.Events.Delivery
