import PriceScout.Library.Utf8
import PriceScout.Store.Deliveries

/-!
What is kept of the answer to a delivery that was not accepted: its body, or
its status line when there is nothing in the body, in bytes. Three limits cut
the text without regard to its characters, and Postgres takes no torn ones.
-/

namespace PriceScout.Alertdelivery.ResponseTexts

open PriceScout.Library
open PriceScout.Library.GoStrings (isSpace clipChars)
open PriceScout.Library.Utf8
open PriceScout.Store.Deliveries (failureMessage)

/-- The message of `send`. -/
def responseMessage (body status : List UInt8) : List UInt8 :=
  let message := clipBytes 500 (trimSpace (body.take 4096))
  if message = [] then status else message

/-- What `FailAlertDelivery` writes to `last_error`; an empty text is `NULL`. -/
def lastError (message : List UInt8) : List UInt8 :=
  clipBytes 1000 (trimSpace message)

/-- Both texts are UTF-8. -/
def Recordable (body : List Char) (status : List UInt8) : Prop :=
  Valid (responseMessage (utf8 body) status) ∧
    Valid (lastError (responseMessage (utf8 body) status))

def trimmed (chars : List Char) : List Char :=
  (chars.dropWhile isSpace).rdropWhile isSpace

/-- The limits cut between characters. -/
structure CutBetween (body : List Char) (status : List UInt8) : Prop where
  torn : ¬ Boundary body (min 4096 (byteCount body)) →
    Boundary ((clipChars 4096 body).dropWhile isSpace) 500
  whole : Boundary body (min 4096 (byteCount body)) →
    Boundary (trimmed (clipChars 4096 body))
      (min 500 (byteCount (trimmed (clipChars 4096 body))))
  blank : Boundary body (min 4096 (byteCount body)) → trimmed (clipChars 4096 body) = [] →
    ∃ text, utf8 text = status ∧ Boundary (trimmed text) (min 1000 (byteCount (trimmed text)))

section Texts

variable {body chars : List Char} {bytes status rest : List UInt8}

theorem trimmed_of_forall (h : ∀ c ∈ chars, isSpace c = false) : trimmed chars = chars := by
  have hfront : chars.dropWhile isSpace = chars :=
    List.dropWhile_eq_self_iff.mpr fun hl => by simp [h _ (List.getElem_mem hl)]
  rw [trimmed, hfront]
  exact List.rdropWhile_eq_self_iff.mpr fun hl => by simp [h _ (List.getLast_mem hl)]

theorem valid_lastError_iff : Valid (lastError (utf8 chars)) ↔
    Boundary (trimmed chars) (min 1000 (byteCount (trimmed chars))) := by
  rw [lastError, clipBytes_eq_take, trimSpace_utf8]
  exact valid_take_iff

theorem byteCount_trimmed_le (chars : List Char) :
    byteCount (trimmed chars) ≤ byteCount chars := by
  obtain ⟨back, hback⟩ := List.rdropWhile_prefix isSpace (chars.dropWhile isSpace)
  obtain ⟨front, hfront⟩ := List.dropWhile_suffix (l := chars) isSpace
  calc byteCount (trimmed chars)
      ≤ byteCount (trimmed chars ++ back) := by
        rw [byteCount_append]
        exact Nat.le_add_right _ _
    _ = byteCount (chars.dropWhile isSpace) := congrArg byteCount hback
    _ ≤ byteCount (front ++ chars.dropWhile isSpace) := by
        rw [byteCount_append]
        exact Nat.le_add_left _ _
    _ = byteCount chars := congrArg byteCount hfront

/-- A short text is recorded if it is one. -/
theorem valid_lastError_of_le (hvalid : Valid bytes) (hlength : bytes.length ≤ 1000) :
    Valid (lastError bytes) := by
  obtain ⟨chars, rfl⟩ := hvalid
  have hle := (byteCount_trimmed_le chars).trans hlength
  rw [valid_lastError_iff, Nat.min_eq_right hle]
  exact boundary_byteCount _

/-- Of a text that can be recorded the bytes are those of the stored message. -/
theorem lastError_of_valid {message : String} (h : Valid (lastError (utf8 message.toList))) :
    lastError (utf8 message.toList) = utf8 (failureMessage message).toList := by
  have hstored : (failureMessage message).toList = clipChars 1000 (trimmed message.toList) := by
    simp [failureMessage, GoStrings.clip, GoStrings.trimSpace, trimmed]
  rw [lastError, clipBytes_eq_take, trimSpace_utf8] at h ⊢
  obtain ⟨rest, htake, hrest⟩ := take_utf8 1000 (trimmed message.toList)
  rw [trimmed] at htake
  rw [htake] at h ⊢
  rcases hrest with rfl | htorn
  · rw [List.append_nil, hstored]
    rfl
  · exact absurd h (not_valid_of_torn htorn _)

theorem recordable_iff_of_ne_nil (h : clipBytes 500 (trimSpace ((utf8 body).take 4096)) ≠ []) :
    Recordable body status ↔ Valid (clipBytes 500 (trimSpace ((utf8 body).take 4096))) := by
  have hmessage : responseMessage (utf8 body) status =
      clipBytes 500 (trimSpace ((utf8 body).take 4096)) := if_neg h
  rw [Recordable, hmessage]
  constructor
  · exact fun hvalid => hvalid.1
  · intro hvalid
    refine ⟨hvalid, valid_lastError_of_le hvalid ?_⟩
    rw [clipBytes_eq_take]
    exact (List.length_take_le 500 _).trans (by omega)

/-- The body was read up to a character. -/
theorem recordable_of_whole (htake : (utf8 body).take 4096 = utf8 (clipChars 4096 body)) :
    Recordable body status ↔
      Boundary (trimmed (clipChars 4096 body))
          (min 500 (byteCount (trimmed (clipChars 4096 body)))) ∧
        (trimmed (clipChars 4096 body) = [] → ∃ text, utf8 text = status ∧
          Boundary (trimmed text) (min 1000 (byteCount (trimmed text)))) := by
  have hclip : clipBytes 500 (trimSpace ((utf8 body).take 4096)) =
      (utf8 (trimmed (clipChars 4096 body))).take 500 := by
    rw [htake, trimSpace_utf8, clipBytes_eq_take]
    rfl
  by_cases hblank : trimmed (clipChars 4096 body) = []
  · have hmessage : responseMessage (utf8 body) status = status := by
      rw [hblank] at hclip
      exact if_pos hclip
    rw [Recordable, hmessage]
    constructor
    · rintro ⟨⟨text, rfl⟩, hrecorded⟩
      refine ⟨?_, fun _ => ⟨text, rfl, valid_lastError_iff.mp hrecorded⟩⟩
      rw [hblank]
      exact boundary_byteCount []
    · rintro ⟨-, hstatus⟩
      obtain ⟨text, rfl, hboundary⟩ := hstatus hblank
      exact ⟨valid_utf8 text, valid_lastError_iff.mpr hboundary⟩
  · have hne : clipBytes 500 (trimSpace ((utf8 body).take 4096)) ≠ [] := by
      obtain ⟨c, text, htext⟩ := List.exists_cons_of_ne_nil hblank
      rw [hclip, htext]
      simp [String.utf8EncodeChar_ne_nil]
    rw [recordable_iff_of_ne_nil hne, hclip, valid_take_iff]
    exact ⟨fun h => ⟨h, fun hnil => absurd hnil hblank⟩, fun h => h.1⟩

/-- The body was read up to the middle of a character. -/
theorem recordable_of_torn (htake : (utf8 body).take 4096 = utf8 (clipChars 4096 body) ++ rest)
    (htorn : Torn rest) :
    Recordable body status ↔ Boundary ((clipChars 4096 body).dropWhile isSpace) 500 := by
  have hclip : clipBytes 500 (trimSpace ((utf8 body).take 4096)) =
      (utf8 ((clipChars 4096 body).dropWhile isSpace) ++ rest).take 500 := by
    rw [htake, trimSpace_of_torn htorn, clipBytes_eq_take]
  have hne : clipBytes 500 (trimSpace ((utf8 body).take 4096)) ≠ [] := by
    rw [hclip]
    simp [htorn.1]
  rw [recordable_iff_of_ne_nil hne, hclip]
  exact valid_take_of_torn_iff htorn

end Texts

/-- A failure is recorded, whatever the answer was, if and only if the limits
cut between its characters. -/
theorem recordable_iff (body : List Char) (status : List UInt8) :
    Recordable body status ↔ CutBetween body status := by
  obtain ⟨rest, htake, hrest⟩ := take_utf8 4096 body
  rcases hrest with rfl | htorn
  · rw [List.append_nil] at htake
    have hwhole : Boundary body (min 4096 (byteCount body)) := by
      rw [← valid_take_iff, htake]
      exact valid_utf8 _
    rw [recordable_of_whole htake]
    constructor
    · rintro ⟨hboundary, hblank⟩
      exact ⟨fun hnot => absurd hwhole hnot, fun _ => hboundary, fun _ => hblank⟩
    · exact fun h => ⟨h.whole hwhole, h.blank hwhole⟩
  · have hnot : ¬ Boundary body (min 4096 (byteCount body)) := by
      rw [← valid_take_iff, htake]
      exact not_valid_of_torn htorn _
    rw [recordable_of_torn htake htorn]
    constructor
    · exact fun hboundary => ⟨fun _ => hboundary, fun hwhole => absurd hwhole hnot,
        fun hwhole => absurd hwhole hnot⟩
    · exact fun h => h.torn hnot

/-- The last letter of this body takes the bytes 500 and 501. -/
theorem torn_letter_not_recorded :
    ¬ Recordable (List.replicate 499 'a' ++ ['é']) (utf8 "502 Bad Gateway".toList) := by
  have hcount : byteCount (List.replicate 499 'a') = 499 := byteCount_replicate 499 'a'
  have hsize : byteCount (List.replicate 499 'a' ++ ['é']) = 501 := by
    rw [byteCount_append, hcount]
    rfl
  have hclip : clipChars 4096 (List.replicate 499 'a' ++ ['é']) =
      List.replicate 499 'a' ++ ['é'] :=
    clipChars_of_le (by omega)
  have htrimmed : trimmed (List.replicate 499 'a' ++ ['é']) =
      List.replicate 499 'a' ++ ['é'] := by
    apply trimmed_of_forall
    intro c hc
    rcases List.mem_append.mp hc with hc | hc
    · rw [List.eq_of_mem_replicate hc]
      decide
    · rw [List.mem_singleton.mp hc]
      decide
  have htake : (utf8 (List.replicate 499 'a' ++ ['é'])).take 4096 =
      utf8 (clipChars 4096 (List.replicate 499 'a' ++ ['é'])) := by
    rw [hclip]
    exact List.take_of_length_le (by rw [length_utf8]; omega)
  rw [recordable_of_whole htake, hclip, htrimmed, hsize]
  rintro ⟨hboundary, -⟩
  exact not_boundary_within (by omega) (by rw [hcount]; decide) hboundary

end PriceScout.Alertdelivery.ResponseTexts
