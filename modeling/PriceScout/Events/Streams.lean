import PriceScout.Events.Delivery
import PriceScout.Library.EventStreams

/-!
The event streams as the browsers read them: what a console writes is read back as
the events that were published, and a stream that breaks shows no part of one.
-/

namespace PriceScout.Events.Streams

open PriceScout.Events.Broker
open PriceScout.Events.Delivery
open PriceScout.Library.EventStreams
open PriceScout.Library.JsonTexts
open PriceScout.Library.Runs

/-- What is written of a frame. -/
def Frame.text : Frame → List Char
  | .connected => ": connected\n\n".toList
  | .update payload => "event: update\ndata: ".toList ++ payload.text ++ "\n\n".toList
  | .empty => "event: update\ndata: \n\n".toList
  | .keepalive => ": keepalive\n\n".toList

/-- The response of a console so far. -/
def response (k : Console) : List Char :=
  k.body.flatMap Frame.text

/-- The event that a browser dispatches for a payload. -/
def shown (payload : Payload) : MessageEvent :=
  ⟨"update".toList, payload.text, []⟩

section Reading

variable {r : Reader} {payload : Payload} {frames : List Frame}

/-- The reader is between two frames. -/
def Between (dispatched : List MessageEvent) : Reader :=
  ⟨[], false, [], [], [], dispatched⟩

theorem feedAll_comment {dispatched : List MessageEvent} {line : List Char}
    (h : ∀ c ∈ line, c ≠ '\n' ∧ c ≠ '\r') :
    (Between dispatched).feedAll (':' :: line ++ ['\n', '\n']) = Between dispatched := by
  have hline : ∀ c ∈ ':' :: line, c ≠ '\n' ∧ c ≠ '\r' := by
    rintro c hc
    rcases List.mem_cons.mp hc with rfl | hc
    · decide
    · exact h c hc
  have hsplit : ':' :: line ++ ['\n', '\n'] = (':' :: line ++ ['\n']) ++ ['\n'] := by simp
  rw [hsplit, feedAll_append, feedAll_line_end rfl rfl hline]
  rfl

theorem endLine_event {dispatched : List MessageEvent} :
    Reader.endLine { Between dispatched with line := "event: update".toList } =
      { Between dispatched with type := "update".toList } := by
  have hline : "event: update".toList = 'e' :: "vent".toList ++ ':' :: " update".toList := by
    decide
  rw [endLine_field (by decide) hline]
  simp [Reader.readField, dropSpace, Between]

theorem endLine_data {dispatched : List MessageEvent} {text : List Char} :
    Reader.endLine { Between dispatched with
      type := "update".toList
      line := "data: ".toList ++ text } =
        { Between dispatched with
          type := "update".toList
          data := text ++ ['\n'] } := by
  have hline : "data: ".toList ++ text = 'd' :: "ata".toList ++ ':' :: ' ' :: text := by
    simp
  rw [endLine_field (by decide) hline]
  simp [Reader.readField, dropSpace, Between]

theorem text_update (payload : Payload) :
    Frame.text (.update payload) = ("event: update".toList ++ ['\n']) ++
      (("data: ".toList ++ payload.text ++ ['\n']) ++ ['\n']) := by
  have hfront : "event: update\ndata: ".toList =
      "event: update".toList ++ '\n' :: "data: ".toList := by
    decide
  have hback : "\n\n".toList = ['\n', '\n'] := by
    decide
  have htext : Frame.text (.update payload) =
      "event: update\ndata: ".toList ++ payload.text ++ "\n\n".toList :=
    rfl
  generalize "event: update\ndata: ".toList = front at hfront htext
  generalize "\n\n".toList = back at hback htext
  generalize "event: update".toList = first at hfront ⊢
  generalize "data: ".toList = second at hfront ⊢
  rw [htext, hfront, hback]
  simp

/-- An update is dispatched by the blank line behind it. -/
theorem feedAll_update {dispatched : List MessageEvent}
    (h : ∀ c ∈ payload.text, c ≠ '\n' ∧ c ≠ '\r') :
    (Between dispatched).feedAll (Frame.text (.update payload)) =
      Between (dispatched ++ [shown payload]) := by
  have hsplit := text_update payload
  have hdata : ∀ c ∈ "data: ".toList ++ payload.text, c ≠ '\n' ∧ c ≠ '\r' := by
    intro c hc
    rcases List.mem_append.mp hc with hc | hc
    · have hall : ∀ c ∈ "data: ".toList, c ≠ '\n' ∧ c ≠ '\r' := by simp
      exact hall c hc
    · exact h c hc
  have hfirst : (Between dispatched).feedAll ("event: update".toList ++ ['\n']) =
      { Between dispatched with type := "update".toList } := by
    rw [feedAll_line_end rfl rfl (by simp), endLine_event]
  have hsecond : Reader.feedAll { Between dispatched with type := "update".toList }
      ("data: ".toList ++ payload.text ++ ['\n']) =
        { Between dispatched with
          type := "update".toList
          data := payload.text ++ ['\n'] } := by
    rw [feedAll_line_end rfl rfl hdata, endLine_data]
  rw [hsplit, feedAll_append, hfirst, feedAll_append, hsecond]
  simp [feedAll_cons, Reader.feed, Reader.endLine, Reader.dispatch, Between, shown]

/-- Comments and updates are read one after the other. -/
theorem feedAll_frames {dispatched : List MessageEvent} (hempty : .empty ∉ frames)
    (h : ∀ payload, .update payload ∈ frames → ∀ c ∈ payload.text, c ≠ '\n' ∧ c ≠ '\r') :
    (Between dispatched).feedAll (frames.flatMap Frame.text) =
      Between (dispatched ++ (frames.filterMap Frame.payload?).map shown) := by
  induction frames generalizing dispatched with
  | nil => simp
  | cons frame frames ih =>
      have hrest : ∀ dispatched, (Between dispatched).feedAll (frames.flatMap Frame.text) =
          Between (dispatched ++ (frames.filterMap Frame.payload?).map shown) :=
        fun dispatched => ih (fun hmem => hempty (List.mem_cons_of_mem _ hmem))
          fun payload hmem => h payload (List.mem_cons_of_mem _ hmem)
      rw [List.flatMap_cons, feedAll_append]
      cases frame with
      | empty => exact absurd List.mem_cons_self hempty
      | update payload =>
          rw [feedAll_update (h payload List.mem_cons_self), hrest]
          simp [Frame.payload?]
      | connected =>
          have htext : Frame.text .connected = ':' :: " connected".toList ++ ['\n', '\n'] := by
            decide
          rw [htext, feedAll_comment (by simp), hrest]
          rfl
      | keepalive =>
          have htext : Frame.text .keepalive = ':' :: " keepalive".toList ++ ['\n', '\n'] := by
            decide
          rw [htext, feedAll_comment (by simp), hrest]
          rfl

end Reading

section Publishing

variable {s s' : System} {a : Action} {n j : Nat} {p' : Publication} {actions : List Action}

/-- A publication is one that was there or one that begins. -/
theorem publication_backward (a : Action) (hp' : (step s a).publications[n]? = some p') :
    (∃ p : Publication, s.publications[n]? = some p ∧ p'.payload = p.payload) ∨
      n = s.publications.length ∧ ∃ event, a = .publish event ∧
        p'.payload = ⟨n, marshal event.json⟩ := by
  have htook := took_step s a
  generalize step s a = s' at htook hp'
  cases htook with
  | idle | subscribed | panicked | unsubscribed | unsubscribedAgain => exact Or.inl ⟨p', hp', rfl⟩
  | moved _ c k k' change _ hnone hk hmoves hs' =>
      rw [hs'] at hp'
      exact Or.inl ⟨p', hp', rfl⟩
  | published event =>
      rcases getElem?_concat_of_some hp' with hold | ⟨rfl, rfl⟩
      · exact Or.inl ⟨p', hold, rfl⟩
      · exact Or.inr ⟨rfl, event, rfl, rfl⟩
  | offered number c p k hp hk hremaining hopen =>
      simp only [System.setConsole, System.setPublication, getElem?_set_of_some hp] at hp'
      split at hp'
      · rename_i hsame
        subst hsame
        exact Or.inl ⟨p, hp, by rw [← Option.some.inj hp']⟩
      · exact Or.inl ⟨p', hp', rfl⟩
  | finished number p hp hdone =>
      simp only [System.setPublication, getElem?_set_of_some hp] at hp'
      split at hp'
      · rename_i hsame
        subst hsame
        exact Or.inl ⟨p, hp, by rw [← Option.some.inj hp']⟩
      · exact Or.inl ⟨p', hp', rfl⟩

/-- The step number `i` of the run is the publication number `n`, of the event. -/
def PublishedAt (actions : List Action) (i n : Nat) (event : Event) : Prop :=
  actions[i]? = some (.publish event) ∧ (stateAt step System.new actions i).publications.length = n

/-- Every publication began at a step of the run. -/
theorem exists_publishedAt (hj : j ≤ actions.length)
    (hp' : (stateAt step System.new actions j).publications[n]? = some p') :
    ∃ i event, i < j ∧ PublishedAt actions i n event ∧ p'.payload = ⟨n, marshal event.json⟩ := by
  induction j generalizing p' with
  | zero => simp [System.new] at hp'
  | succ j ih =>
      rw [stateAt_succ (by omega)] at hp'
      rcases publication_backward _ hp' with ⟨p, hp, hpayload⟩ | ⟨rfl, event, haction, hpayload⟩
      · obtain ⟨i, event, hij, hpublished, hold⟩ := ih (by omega) hp
        exact ⟨i, event, by omega, hpublished, hpayload.trans hold⟩
      · refine ⟨j, event, Nat.lt_succ_self j, ⟨?_, rfl⟩, hpayload⟩
        rw [List.getElem?_eq_getElem (by omega), haction]

end Publishing

/-- What a browser shows of a console's stream are the publications that the console
has written, in their order, each with the event that was published. A stream that
breaks off anywhere shows the first of them and no part of the next. -/
theorem streams_show_what_was_published (actions : List Action) (c : Nat) (k : Console)
    (hk : (run step System.new actions).consoles[c]? = some k) :
    let payloads := k.body.filterMap Frame.payload?
    events (response k) = payloads.map shown ∧
      (∀ text, text <+: response k → events text <+: payloads.map shown) ∧
      ∀ payload ∈ payloads, ∃ i event, PublishedAt actions i payload.number event ∧
        parse payload.text = some event.json := by
  intro payloads
  have hreachable : Reachable step System.new (run step System.new actions) := ⟨actions, rfl⟩
  have hframed := framed_of_reachable hreachable
  have horigin : ∀ payload ∈ received k, ∃ i event, PublishedAt actions i payload.number event ∧
      payload.text = marshal event.json := by
    intro payload hpayload
    rw [← receivedBy_of_some hk] at hpayload
    obtain ⟨p, hp, rfl, -⟩ := (delivered_of_reachable hreachable).came c payload hpayload
    rw [← stateAt_length] at hp
    obtain ⟨i, event, -, hpublished, hmarshal⟩ := exists_publishedAt le_rfl hp
    refine ⟨i, event, hpublished, ?_⟩
    rw [hmarshal]
  have hwritten : ∀ payload ∈ payloads, payload ∈ received k :=
    fun payload hpayload => List.mem_append_left _ hpayload
  have hlines : ∀ payload, .update payload ∈ k.body → ∀ c ∈ payload.text, c ≠ '\n' ∧ c ≠ '\r' := by
    intro payload hmem c hc
    have hpayload : payload ∈ payloads := List.mem_filterMap.mpr ⟨_, hmem, rfl⟩
    obtain ⟨i, event, -, htext⟩ := horigin payload (hwritten payload hpayload)
    rw [htext] at hc
    have hlow := toNat_of_mem_marshal event.json c hc
    constructor
    · rintro rfl
      exact absurd hlow (by decide)
    · rintro rfl
      exact absurd hlow (by decide)
  have hshape : .empty ∉ k.body ∧ (k.body = [] ∨ ∃ rest, k.body = .connected :: rest) := by
    by_cases hphase : k.phase = .subscribed
    · rw [hframed.silent c k hk hphase]
      exact ⟨List.not_mem_nil, Or.inl rfl⟩
    · obtain ⟨rest, hbody, -, hempty⟩ := hframed.opened c k hk hphase
      rw [hbody]
      exact ⟨by simpa using hempty, Or.inr ⟨rest, rfl⟩⟩
  have hall : (Reader.start.feedAll (response k)).dispatched = payloads.map shown :=
    congrArg Reader.dispatched (@feedAll_frames _ [] hshape.1 hlines)
  rcases hshape.2 with hbody | ⟨rest, hbody⟩
  · have hnone : response k = [] := by rw [response, hbody, List.flatMap_nil]
    rw [hnone] at hall ⊢
    refine ⟨hall, fun text htext => ?_, fun payload hpayload => ?_⟩
    · rw [List.prefix_nil.mp htext, ← hall]
      exact List.prefix_refl _
    · simp [payloads, hbody] at hpayload
  · obtain ⟨tail, hopen⟩ : ∃ tail, response k = ':' :: tail := by
      rw [response, hbody, List.flatMap_cons]
      exact ⟨_, rfl⟩
    have hevents : events (response k) = payloads.map shown := by
      have hmark : (':' :: tail).head? ≠ some '\uFEFF' := by
        simp
      rw [← hall, events, hopen, if_neg hmark]
    refine ⟨hevents, fun text htext => ?_, fun payload hpayload => ?_⟩
    · rw [← hevents, hopen]
      rw [hopen] at htext
      exact events_prefix htext
    · obtain ⟨i, event, hpublished, htext⟩ := horigin payload (hwritten payload hpayload)
      exact ⟨i, event, hpublished, by rw [htext, parse_marshal]⟩

theorem streams_show_what_was_published_twoUpdates : ∃ k : Console,
    (run step System.new twoUpdates).consoles[0]? = some k ∧
      events (response k) = (k.body.filterMap Frame.payload?).map shown := by
  obtain ⟨k, hk⟩ : ∃ k, (run step System.new twoUpdates).consoles[0]? = some k :=
    ⟨_, rfl⟩
  exact ⟨k, hk, (streams_show_what_was_published twoUpdates 0 k hk).1⟩

end PriceScout.Events.Streams
