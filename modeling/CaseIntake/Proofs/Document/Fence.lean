import CaseIntake.Proofs.Conversion.Identifiers
import CaseIntake.Proofs.Text.Split

/-!
# CaseIntake.Proofs.Document.Fence

Taking fences off. A text between fences comes out as it is (`unfenced_fenced`), even one that holds
fences itself, and a text without fences at its ends is left alone (`unfenced_eq_self`). So a
document reads the same with fences and without (`fenced_reads_as_body`).
-/

namespace CaseIntake
namespace Document

/-- A text as a code block: fences on lines of their own, a word for the language after the first
one, and more text around the block. -/
def fenced (lead hint body trail : String) : String :=
  lead ++ "\x60\x60\x60" ++ hint ++ "\n" ++ body ++ "\n\x60\x60\x60" ++ trail

/-- The text has no blanks at its ends. -/
structure IsTrimmed (body : String) : Prop where
  head : ∀ c, body.toList.head? = some c → Text.isBlank c = false
  last : ∀ c, body.toList.getLast? = some c → Text.isBlank c = false

/-- Letters and digits within ASCII, and four other characters. -/
def IsHint (hint : String) : Prop :=
  ∀ c ∈ hint.toList, c.isAlphanum = true ∨ c ∈ ['-', '_', '+', '.']

/-- Remarks after a block: they do not lengthen the closing fence, and there is no fence in them. -/
structure IsTrailer (trail : String) : Prop where
  head : trail.toList.head? ≠ some '\x60'
  fence : ¬fence <:+: trail.toList

theorem isAlphanum_eq (c : Char) :
    c.isAlphanum =
      (decide ('A' ≤ c ∧ c ≤ 'Z') || ('a' ≤ c && c ≤ 'z') || ('0' ≤ c && c ≤ '9')) :=
  rfl

theorem isHintChar_of_isHint {hint : String} (h : IsHint hint) :
    ∀ c ∈ hint.toList, isHintChar c = true := by
  intro c hc
  rcases h c hc with halphanum | hother
  · simp only [isAlphanum_eq, Bool.or_eq_true] at halphanum
    rcases halphanum with (hupper | hlower) | hdigit
    · rw [Bool.decide_and] at hupper
      simp [isHintChar, hupper]
    · simp [isHintChar, hlower]
    · simp [isHintChar, hdigit]
  · simp only [List.mem_cons, List.not_mem_nil, or_false] at hother
    rcases hother with rfl | rfl | rfl | rfl <;> decide

/-- The word for the language ends at the line break. -/
theorem dropHint_append {hint rest : List Char} (h : ∀ c ∈ hint, isHintChar c = true) :
    dropHint (hint ++ '\n' :: rest) = '\n' :: rest := by
  rw [dropHint, List.dropWhile_append_of_pos h, List.dropWhile_cons_of_neg (by decide)]
  rfl

/-- The closing fence is the last one, whatever is between the fences. -/
theorem beforeLastWord_fence {before after : List Char} (hhead : after.head? ≠ some '\x60')
    (hfence : ¬fence <:+: after) :
    Text.beforeLastWord fence (before ++ fence ++ after) = some before := by
  refine Text.beforeLastWord_append ?_
  have hshort : ¬['\x60'] <+: after := by
    cases after with
    | nil => simp
    | cons c after =>
      simp only [List.head?_cons, ne_eq, Option.some.injEq] at hhead
      simp [Ne.symm hhead]
  simp only [List.cons_append, List.nil_append, List.infix_cons_iff, List.cons_prefix_cons,
    true_and, not_or]
  refine ⟨?_, ?_, hfence⟩
  · exact hshort
  · intro hprefix
    exact hshort ((List.prefix_append ['\x60'] ['\x60']).trans hprefix)

/-- Of the text around a block, trimming leaves the remarks without blanks at their end. -/
theorem trimChars_fenced {lead hint body trail : String}
    (hlead : ∀ c ∈ lead.toList, Text.isBlank c = true) :
    Text.trimChars (fenced lead hint body trail).toList =
      fence ++ (hint.toList ++ '\n' :: (body.toList ++ '\n' ::
        (fence ++ Text.dropTrailing Text.isBlank trail.toList))) := by
  have htext : (fenced lead hint body trail).toList =
      lead.toList ++ ((fence ++ hint.toList ++ '\n' :: body.toList ++ ['\n', '\x60', '\x60']) ++
        '\x60' :: trail.toList) := by
    simp [fenced, fence]
  rw [htext, Text.trimChars_append_left hlead, Text.trimChars, Text.dropWhile_eq_self_of_head?,
    Text.dropTrailing_append (by decide)]
  · simp [fence]
  · intro c hc
    simp only [fence, List.cons_append, List.head?_cons, Option.some.injEq] at hc
    subst hc
    decide

/-- With the fences off, what is left is the text between them. -/
theorem unfenced_fenced {lead hint body trail : String}
    (hlead : ∀ c ∈ lead.toList, Text.isBlank c = true) (hhint : IsHint hint)
    (hbody : IsTrimmed body) (htrail : IsTrailer trail) :
    unfenced (fenced lead hint body trail) = body := by
  have hshorter := Text.dropTrailing_prefix Text.isBlank trail.toList
  have hhead : (Text.dropTrailing Text.isBlank trail.toList).head? ≠ some '\x60' := by
    intro h
    obtain ⟨rest, hrest⟩ := hshorter
    refine htrail.head ?_
    rw [← hrest, List.head?_append, h]
    rfl
  have hfence : ¬fence <:+: Text.dropTrailing Text.isBlank trail.toList :=
    fun h => htrail.fence (h.trans hshorter.isInfix)
  have hcut : Text.beforeLastWord fence ('\n' :: (body.toList ++ '\n' ::
      (fence ++ Text.dropTrailing Text.isBlank trail.toList))) =
        some (['\n'] ++ (body.toList ++ ['\n'])) := by
    rw [← beforeLastWord_fence hhead hfence]
    simp
  have hnewline : ∀ c ∈ ['\n'], Text.isBlank c = true := by
    intro c hc
    rw [List.mem_singleton.1 hc]
    decide
  rw [unfenced, unfencedChars, trimChars_fenced hlead, Text.dropStart?_append]
  simp only [dropHint_append (isHintChar_of_isHint hhint), hcut, Option.getD_some]
  rw [Text.trimChars_append_left hnewline, Text.trimChars_append_right hnewline,
    Text.trimChars_eq_self hbody.head hbody.last, String.ofList_toList]

theorem unfenced_eq_self {body : String} (hbody : IsTrimmed body)
    (hstart : ¬fence <+: body.toList) (hend : ¬fence <:+ body.toList) : unfenced body = body := by
  have htrim : Text.trimChars body.toList = body.toList :=
    Text.trimChars_eq_self hbody.head hbody.last
  rw [unfenced, unfencedChars]
  simp only [htrim, Text.dropStart?_eq_none hstart, Text.dropEnd?_eq_none hend, Option.getD_none,
    String.ofList_toList]

section Same

variable {text text' : String} (h : unfenced text = unfenced text') (o : Options)

include h

theorem resolve_congr : resolve o text = resolve o text' := by
  unfold resolve refusal
  rw [h]

theorem parseAndValidate_congr : parseAndValidate o text = parseAndValidate o text' := by
  unfold parseAndValidate refusal
  rw [resolve_congr h, h]

theorem ingest_congr (ids : Nat → String) (target : Target) :
    ingest ids target o text = ingest ids target o text' := by
  unfold ingest
  rw [resolve_congr h]

end Same

/-- A text in a code block is read as the text: the block takes nothing from it and adds nothing to
it, though it hold fences itself. If it has none at its ends, then with and without the block it
resolves to the same document, or it is refused for the same reason and with the same excerpt, and
ingestion gives the same report, the same warnings and the same specifications but for their
identifiers. -/
theorem fenced_reads_as_body (lead hint body trail : String)
    (hlead : ∀ c ∈ lead.toList, Text.isBlank c = true) (hhint : IsHint hint)
    (hbody : IsTrimmed body) (htrail : IsTrailer trail) :
    unfenced (fenced lead hint body trail) = body ∧
      (¬fence <+: body.toList → ¬fence <:+ body.toList →
        ∀ (o : Options) (target : Target) (ids ids' : Nat → String),
          resolve o (fenced lead hint body trail) = resolve o body ∧
          parseAndValidate o (fenced lead hint body trail) = parseAndValidate o body ∧
          (ingest ids target o (fenced lead hint body trail)).map Ingested.anonymous =
            (ingest ids' target o body).map Ingested.anonymous) := by
  have hunfenced := unfenced_fenced hlead hhint hbody htrail
  refine ⟨hunfenced, fun hstart hend o target ids ids' => ?_⟩
  have hsame : unfenced (fenced lead hint body trail) = unfenced body := by
    rw [hunfenced, unfenced_eq_self hbody hstart hend]
  refine ⟨resolve_congr hsame o, parseAndValidate_congr hsame o, ?_⟩
  rw [ingest_congr hsame]
  exact ingest_anonymous ids ids' target o body

/-- A case whose name is a fence, in a block with blanks before it and remarks after it. -/
theorem fenced_reads_as_body_inner_fence :
    let body := "name: '\x60\x60\x60'\naction: F(1)"
    let text := fenced " \n" "yaml" body " \x60Bye\x60\n"
    unfenced text = body ∧ (resolve .standard text).toOption.map Resolved.shape = some .singleCase ∧
      (ingest (fun _ => "1") (.function "F") .standard text).map Ingested.anonymous =
        (ingest (fun _ => "2") (.function "F") .standard body).map Ingested.anonymous := by
  intro body text
  have hlead : " \n".toList.all Text.isBlank = true := by decide +kernel
  have hhint : "yaml".toList.all Char.isAlphanum = true := by decide +kernel
  have hhead : body.toList.head? = some 'n' := by decide +kernel
  have hlast : body.toList.getLast? = some ')' := by decide +kernel
  have hbody : IsTrimmed body := by
    refine ⟨fun c hc => ?_, fun c hc => ?_⟩
    · obtain rfl := Option.some.inj (hhead.symm.trans hc)
      decide
    · obtain rfl := Option.some.inj (hlast.symm.trans hc)
      decide
  have htrail : IsTrailer " \x60Bye\x60\n" := ⟨by decide +kernel, by decide +kernel⟩
  have hstart : ¬fence <+: body.toList := by decide +kernel
  have hend : ¬fence <:+ body.toList := by decide +kernel
  obtain ⟨hunfenced, hsame⟩ :=
    fenced_reads_as_body " \n" "yaml" body " \x60Bye\x60\n" (List.all_eq_true.1 hlead)
      (fun c hc => Or.inl (List.all_eq_true.1 hhint c hc)) hbody htrail
  obtain ⟨hresolve, _, hingest⟩ :=
    hsame hstart hend .standard (.function "F") (fun _ => "1") (fun _ => "2")
  refine ⟨hunfenced, ?_, hingest⟩
  rw [hresolve]
  decide +kernel

end Document
end CaseIntake
