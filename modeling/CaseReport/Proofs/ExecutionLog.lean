import Mathlib.Control.Monad.Basic
import CaseReport.Proofs.Reconciliation.Pass
import CaseReport.Proofs.Text.Lossy

/-!
# What a log mentions

A log file is read leniently and searched without its line breaks. All the same an identifier is
found exactly where its bytes stand in the file, with nothing but line breaks between the bytes of
one character and those of the next: neither bytes that are no text nor the removal of line breaks
ever hide or make up an identifier.
-/

namespace CaseReport

namespace Text.Utf8

/-- The bytes are those of the text, with line breaks between its characters but not around it. -/
inductive Spelled : List Char → List UInt8 → Prop where
  | nil : Spelled [] []
  | single (c : Char) : Spelled [c] (encodeChar c)
  | cons (c : Char) {d : Char} {s : List Char} {breaks bytes : List UInt8}
      (hbreaks : ∀ b ∈ breaks, b = 0x0A ∨ b = 0x0D) (rest : Spelled (d :: s) bytes) :
      Spelled (c :: d :: s) (encodeChar c ++ breaks ++ bytes)

end Text.Utf8

namespace Text

open Utf8

variable {s t gap : List Char} {bytes breaks : List UInt8}

/-- A text of line breaks alone. -/
def IsBreaks (gap : List Char) : Prop :=
  ∀ c ∈ gap, c = '\n' ∨ c = '\r'

theorem withoutBreaks_eq_nil_iff : withoutBreaks gap = [] ↔ IsBreaks gap := by
  rw [withoutBreaks, List.filter_eq_nil_iff, IsBreaks]
  refine forall₂_congr fun c _ => ?_
  by_cases hc : c = '\n' <;> simp [hc]

/-! ## Bytes that spell a text -/

private theorem exists_breaks_of_bytes (h : ∀ b ∈ breaks, b = 0x0A ∨ b = 0x0D) :
    ∃ gap, breaks = encode gap ∧ IsBreaks gap := by
  induction breaks with
  | nil => exact ⟨[], rfl, fun _ hc => absurd hc List.not_mem_nil⟩
  | cons b breaks ih =>
    rw [List.forall_mem_cons] at h
    obtain ⟨gap, rfl, hgap⟩ := ih h.2
    rcases h.1 with rfl | rfl
    · exact ⟨'\n' :: gap, rfl, List.forall_mem_cons.2 ⟨.inl rfl, hgap⟩⟩
    · exact ⟨'\r' :: gap, rfl, List.forall_mem_cons.2 ⟨.inr rfl, hgap⟩⟩

private theorem bytes_of_isBreaks (h : IsBreaks gap) :
    ∀ b ∈ encode gap, b = 0x0A ∨ b = 0x0D := by
  intro b hb
  obtain ⟨c, hc, hb⟩ := List.mem_flatMap.1 hb
  rcases h c hc with rfl | rfl
  · exact .inl (List.mem_singleton.1 hb)
  · exact .inr (List.mem_singleton.1 hb)

/-- Bytes that spell a text are a text themselves, one that differs in line breaks only. -/
theorem exists_text_of_spelled (h : Spelled s bytes) :
    ∃ t, bytes = encode t ∧ withoutBreaks t = withoutBreaks s := by
  induction h with
  | nil => exact ⟨[], rfl, rfl⟩
  | single c => exact ⟨[c], by simp, rfl⟩
  | @cons c d s breaks bytes hbreaks _ ih =>
    obtain ⟨t, rfl, ht⟩ := ih
    obtain ⟨gap, rfl, hgap⟩ := exists_breaks_of_bytes hbreaks
    refine ⟨[c] ++ gap ++ t, by simp, ?_⟩
    rw [withoutBreaks_append, withoutBreaks_append, withoutBreaks_eq_nil_iff.2 hgap, ht,
      List.append_nil, ← withoutBreaks_append, List.singleton_append]

/-- A text that stands first once the line breaks are gone is spelled where its first character
stands. -/
private theorem exists_spelled_of_prefix {c : Char} (h : c :: s <+: withoutBreaks t) :
    ∃ gap word rest, t = gap ++ word ++ rest ∧ IsBreaks gap ∧ Spelled (c :: s) (encode word) ∧
      ∀ x ∈ word, x ∈ c :: s ∨ x = '\n' ∨ x = '\r' := by
  induction s generalizing c t with
  | nil =>
    obtain ⟨after, hafter⟩ := h
    obtain ⟨gap, rest, rfl, hgap, -, -⟩ := List.filter_eq_cons_iff.1 hafter.symm
    refine ⟨gap, [c], rest, by simp, withoutBreaks_eq_nil_iff.1 (List.filter_eq_nil_iff.2 hgap), ?_⟩
    rw [encode_cons, encode_nil, List.append_nil]
    exact ⟨.single c, fun x hx => .inl hx⟩
  | cons d s ih =>
    obtain ⟨after, hafter⟩ := h
    obtain ⟨gap, rest, rfl, hgap, -, hrest⟩ := List.filter_eq_cons_iff.1 hafter.symm
    obtain ⟨gap', word, rest', rfl, hgap', hword, hmem⟩ := ih ⟨after, hrest.symm⟩
    refine ⟨gap, c :: (gap' ++ word), rest', by simp,
      withoutBreaks_eq_nil_iff.1 (List.filter_eq_nil_iff.2 hgap), ?_, ?_⟩
    · rw [encode_cons, encode_append, ← List.append_assoc]
      exact .cons c (bytes_of_isBreaks hgap') hword
    · rw [List.forall_mem_cons]
      refine ⟨.inl List.mem_cons_self, fun x hx => ?_⟩
      rcases List.mem_append.1 hx with hx | hx
      · exact .inr (hgap' x hx)
      · exact (hmem x hx).imp_left (List.mem_cons_of_mem c)

private theorem exists_spelled_of_infix (h : s <:+: withoutBreaks t) :
    ∃ word, word <:+: t ∧ Spelled s (encode word) ∧ ∀ x ∈ word, x ∈ s ∨ x = '\n' ∨ x = '\r' := by
  cases s with
  | nil => exact ⟨[], List.nil_infix, .nil, fun _ hx => absurd hx List.not_mem_nil⟩
  | cons c s =>
    obtain ⟨before, after, h⟩ := h
    rw [List.append_assoc] at h
    obtain ⟨front, back, rfl, -, hback⟩ := List.filter_eq_append_iff.1 h.symm
    obtain ⟨gap, word, rest, rfl, -, hword, hmem⟩ := exists_spelled_of_prefix ⟨after, hback.symm⟩
    exact ⟨word, ⟨front ++ gap, rest, by simp only [List.append_assoc]⟩, hword, hmem⟩

/-- A text without line breaks and replacement characters occurs in what is read leniently, once the
line breaks are gone, exactly if some of the bytes spell it. -/
theorem infix_withoutBreaks_decodeLossy_iff
    (hs : ∀ c ∈ s, c ≠ '\n' ∧ c ≠ '\r' ∧ c ≠ '\uFFFD') :
    s <:+: withoutBreaks (decodeLossy bytes) ↔ ∃ word, word <:+: bytes ∧ Spelled s word := by
  constructor
  · intro h
    obtain ⟨word, hinfix, hspelled, hmem⟩ := exists_spelled_of_infix h
    -- The word has no characters but those of the text and line breaks, so none was replaced.
    have hreplacement : '\uFFFD' ∉ word := by
      intro hbad
      rcases hmem _ hbad with hbad | hbad | hbad
      · exact (hs _ hbad).2.2 rfl
      · exact absurd hbad (by decide)
      · exact absurd hbad (by decide)
    exact ⟨encode word, (infix_decodeLossy_iff hreplacement).1 hinfix, hspelled⟩
  · rintro ⟨word, hinfix, hspelled⟩
    obtain ⟨t, rfl, ht⟩ := exists_text_of_spelled hspelled
    have hbreak : hasBreak s = false :=
      hasBreak_eq_false_iff.2 fun c hc => ⟨(hs c hc).1, (hs c hc).2.1⟩
    rw [← withoutBreaks_eq_self hbreak, ← ht]
    exact (infix_decodeLossy hinfix).filter _

end Text

namespace ExecutionLog

open Host Text.Utf8

/-- A log that can be read mentions an identifier without line breaks and replacement characters
exactly if the bytes of the identifier stand in its file, apart from line breaks between its
characters, whatever bytes stand around them. -/
theorem load_mentions_iff {host : Host} {path : Path} {bytes : List UInt8} {identifier : String}
    (hplan : host.refusals = []) (hread : host.files.read path = .ok bytes)
    (hidentifier : ∀ c ∈ identifier.toList, c ≠ '\n' ∧ c ≠ '\r' ∧ c ≠ '\uFFFD') :
    ∃ log host', (load path).perform host = (.ok log, host') ∧
      (log.mentions identifier = true ↔ ∃ before word after,
        bytes = before ++ word ++ after ∧ Spelled identifier.toList word) := by
  rcases hperform : (load path).perform host with ⟨result, host'⟩
  have hanswered := (reads_load path).of_perform hperform
  have hofFile : ofFile host.files path = .ok (ofBytes bytes) :=
    ofFile_eq_ok_iff.2 ⟨bytes, hread, rfl⟩
  obtain rfl := (hanswered.exact hplan).trans hofFile
  refine ⟨_, host', rfl, ?_⟩
  rw [mentions_iff]
  refine (Text.infix_withoutBreaks_decodeLossy_iff hidentifier).trans ?_
  constructor
  · rintro ⟨word, ⟨before, after, rfl⟩, hword⟩
    exact ⟨before, word, after, rfl, hword⟩
  · rintro ⟨before, word, after, rfl, hword⟩
    exact ⟨word, ⟨before, after, rfl⟩, hword⟩

/-- A host with a log that has the characters é and x on two lines, after the beginning of a
character that is not ended and before a byte that begins no character. -/
def tornLog : Host where
  files := { nodes := [(["log"],
    .file [0xE2, 0x82, 0xC3, 0xA9, 0x0D, 0x0A, 0x78, 0xFF] 0o644)] }

theorem load_tornLog : ∃ log host', (load "log").perform tornLog = (.ok log, host') ∧
    log.mentions "éx" = true := by
  have hread : tornLog.files.read "log" =
      .ok ([0xE2, 0x82] ++ [0xC3, 0xA9, 0x0D, 0x0A, 0x78] ++ [0xFF]) := by decide +kernel
  have hidentifier : ∀ c ∈ "éx".toList, c ≠ '\n' ∧ c ≠ '\r' ∧ c ≠ '\uFFFD' := by simp
  have hbreaks : ∀ b ∈ ([0x0D, 0x0A] : List UInt8), b = 0x0A ∨ b = 0x0D := by simp
  obtain ⟨log, host', hperform, hmentions⟩ := load_mentions_iff rfl hread hidentifier
  exact ⟨log, host', hperform, hmentions.2 ⟨_, _, _, rfl, .cons 'é' hbreaks (.single 'x')⟩⟩

end ExecutionLog

end CaseReport
