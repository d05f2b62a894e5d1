import CaseIntake.Proofs.Reference.Spelling

/-!
# CaseIntake.Proofs.Reference.Scan

Texts that are put together from segments: letters without a dollar sign, dollar signs that begin no
reference, and references. Every text is (`exists_assembled`), so that this says of all texts what
is found in them.

`scan_exactly` is the main statement: the references are found in order, and each is found under
the name that it has as a reference of its own.
-/

namespace CaseIntake
namespace Reference

inductive Segment where
  | literal (letters : List Char)
  /-- A dollar sign by itself. -/
  | dollar
  | word (letters : List Char)
  | braced (inside : List Char)

def Segment.text : Segment → List Char
  | literal letters => letters
  | dollar => ['$']
  | word letters => '$' :: letters
  | braced inside => '$' :: '\x7b' :: (inside ++ ['\x7d'])

/-- The name that a segment refers to; there is none between blank braces. -/
def Segment.name? : Segment → Option String
  | literal _ => none
  | dollar => none
  | word letters => some (String.ofList letters)
  | braced inside =>
    if inside.all Text.isBlank then none else some (String.ofList (Text.trimChars inside))

def written (segments : List Segment) : List Char :=
  segments.flatMap Segment.text

/-- A dollar sign in front of `rest` begins a reference: a word follows, or braces that close. -/
def Begins (rest : List Char) : Prop :=
  (∃ c, rest.head? = some c ∧ isWordChar c = true) ∨ ∃ body, rest = '\x7b' :: body ∧ '\x7d' ∈ body

/-- Segments that are what they are in front of those that follow: a word goes as far as it can, and
a dollar sign by itself begins no reference with what comes after it. -/
inductive Assembled : List Segment → Prop where
  | nil : Assembled []
  | literal {letters : List Char} {segments : List Segment} : '$' ∉ letters →
      Assembled segments → Assembled (.literal letters :: segments)
  | dollar {segments : List Segment} : ¬Begins (written segments) →
      Assembled segments → Assembled (.dollar :: segments)
  | word {letters : List Char} {segments : List Segment} : letters ≠ [] →
      (∀ c ∈ letters, isWordChar c = true) →
      (∀ c, (written segments).head? = some c → isWordChar c = false) →
      Assembled segments → Assembled (.word letters :: segments)
  | braced {inside : List Char} {segments : List Segment} : '\x7d' ∉ inside →
      Assembled segments → Assembled (.braced inside :: segments)

theorem not_begins_brace {body : List Char} (h : '\x7d' ∉ body) : ¬Begins ('\x7b' :: body) := by
  rintro (⟨c, hc, hword⟩ | ⟨inside, hinside, hmem⟩)
  · obtain rfl := Option.some.inj hc
    exact absurd hword (by decide)
  · obtain rfl := (List.cons.inj hinside).2
    exact h hmem

/-! ## The scan, segment by segment -/

section Segments

variable {rest : List Char}

theorem scanChars_cons {c : Char} (h : c ≠ '$') : scanChars (c :: rest) = scanChars rest := by
  rw [scanChars]
  · rintro _ rfl
    exact absurd rfl h
  · rintro rfl
    exact absurd rfl h

theorem scanChars_literal {letters : List Char} (h : '$' ∉ letters) :
    scanChars (letters ++ rest) = scanChars rest := by
  induction letters with
  | nil => rfl
  | cons c letters ih =>
    obtain ⟨hc, hletters⟩ := not_or.1 (List.mem_cons.not.1 h)
    rw [List.cons_append, scanChars_cons (Ne.symm hc), ih hletters]

theorem scanChars_braced {inside : List Char} (h : '\x7d' ∉ inside) :
    scanChars ('$' :: '\x7b' :: (inside ++ '\x7d' :: rest)) = inside :: scanChars rest := by
  rw [scanChars]
  split
  case h_1 found =>
    rw [Text.breakAt_append h] at found
    obtain ⟨rfl, rfl⟩ := Prod.mk.inj (Option.some.inj found)
    rfl
  case h_2 hnone =>
    rw [Text.breakAt_append h] at hnone
    cases hnone

theorem scanChars_word {letters : List Char} (hne : letters ≠ [])
    (hword : ∀ c ∈ letters, isWordChar c = true)
    (hrest : ∀ c, rest.head? = some c → isWordChar c = false) :
    scanChars ('$' :: (letters ++ rest)) = letters :: scanChars rest := by
  rw [scanChars]
  case x =>
    intro body hbody
    obtain ⟨c, letters, rfl⟩ := List.exists_cons_of_ne_nil hne
    obtain rfl : c = '\x7b' := (List.cons.inj hbody).1
    exact absurd (hword _ List.mem_cons_self) (by decide)
  rw [Text.takeWhile_run hword hrest, Text.dropWhile_run hword hrest, if_neg]
  simpa using hne

/-- A dollar sign that begins no reference is passed over, alone or with an open brace. -/
theorem scanChars_dollar (h : ¬Begins rest) : scanChars ('$' :: rest) = scanChars rest := by
  obtain ⟨hword, hbraces⟩ := not_or.1 h
  by_cases hbody : ∃ body, rest = '\x7b' :: body
  · obtain ⟨body, rfl⟩ := hbody
    have hopen : '\x7d' ∉ body := fun hmem => hbraces ⟨body, rfl, hmem⟩
    rw [scanChars]
    split
    case h_1 found =>
      rw [Text.breakAt_eq_none_iff.2 hopen] at found
      cases found
    case h_2 => exact (scanChars_cons (by decide)).symm
  · have hempty : rest.takeWhile isWordChar = [] := by
      cases rest with
      | nil => rfl
      | cons c rest => exact List.takeWhile_cons_of_neg fun hc => hword ⟨c, rfl, hc⟩
    rw [scanChars, hempty]
    · rfl
    · exact fun body heq => hbody ⟨body, heq⟩

end Segments

/-! ## Every text -/

theorem exists_assembled (cs : List Char) :
    ∃ segments, Assembled segments ∧ written segments = cs := by
  -- every step of the scan is one segment, except that an open brace is passed over together with
  -- its dollar sign
  fun_induction scanChars cs with
  | case1 => exact ⟨[], .nil, rfl⟩
  | case2 body inner after found ih =>
    obtain ⟨segments, hsegments, rfl⟩ := ih
    obtain ⟨hinner, rfl⟩ := Text.breakAt_eq_some_iff.1 found
    refine ⟨.braced inner :: segments, .braced hinner hsegments, ?_⟩
    simp [written, Segment.text]
  | case3 body hnone ih =>
    obtain ⟨segments, hsegments, rfl⟩ := ih
    have hopen := not_begins_brace (Text.breakAt_eq_none_iff.1 hnone)
    have hbrace : Assembled (.literal ['\x7b'] :: segments) := .literal (by decide) hsegments
    exact ⟨.dollar :: .literal ['\x7b'] :: segments, .dollar hopen hbrace, rfl⟩
  | case4 rest hbrace word hempty ih =>
    obtain ⟨segments, hsegments, rfl⟩ := ih
    refine ⟨.dollar :: segments, .dollar ?_ hsegments, rfl⟩
    rintro (⟨c, hc, hword⟩ | ⟨body, hbody, -⟩)
    · obtain ⟨tail, htail⟩ := List.head?_eq_some_iff.1 hc
      simp [word, htail, hword] at hempty
    · exact hbrace body hbody
  | case5 rest hbrace word hne ih =>
    obtain ⟨segments, hsegments, heq⟩ := ih
    refine ⟨.word word :: segments, .word (by simpa using hne) ?_ ?_ hsegments, ?_⟩
    · exact fun c hc => List.mem_takeWhile_imp hc
    · intro c hc
      have hhead := List.head?_dropWhile_not isWordChar rest
      rw [← heq, hc] at hhead
      simpa using hhead
    · have hrest : word ++ rest.dropWhile isWordChar = rest := List.takeWhile_append_dropWhile
      rw [← heq] at hrest
      exact congrArg ('$' :: ·) hrest
  | case6 c rest hbrace hc ih =>
    obtain ⟨segments, hsegments, rfl⟩ := ih
    exact ⟨.literal [c] :: segments, .literal (by simpa using fun h => hc h.symm) hsegments, rfl⟩

/-! ## What is found -/

/-- One more reference is one more name, unless it is blank. -/
theorem scan_cons {cs rest found : List Char} (h : scanChars cs = found :: scanChars rest) :
    scan (String.ofList cs) =
      (if Text.trimChars found = [] then [] else [String.ofList (Text.trimChars found)]) ++
        scan (String.ofList rest) := by
  rw [scan, scan, String.toList_ofList, String.toList_ofList, h]
  split
  · rename_i hblank
    simp [hblank]
  · rename_i hname
    simp [hname]

theorem scan_congr {cs rest : List Char} (h : scanChars cs = scanChars rest) :
    scan (String.ofList cs) = scan (String.ofList rest) := by
  rw [scan, scan, String.toList_ofList, String.toList_ofList, h]

theorem scan_written {segments : List Segment} (h : Assembled segments) :
    scan (String.ofList (written segments)) = segments.filterMap Segment.name? := by
  induction h with
  | nil => simp [scan, written, scanChars]
  | literal hletters _ ih => exact (scan_congr (scanChars_literal hletters)).trans ih
  | dollar hbegins _ ih => exact (scan_congr (scanChars_dollar hbegins)).trans ih
  | @word letters segments hne hword hrest _ ih =>
    have hscan : scanChars (written (.word letters :: segments)) =
        letters :: scanChars (written segments) := scanChars_word hne hword hrest
    rw [scan_cons hscan, ih, trimChars_of_isWordChar hword, if_neg hne]
    rfl
  | @braced inside segments hinside _ ih =>
    have hscan : scanChars (written (.braced inside :: segments)) =
        inside :: scanChars (written segments) := by
      rw [← scanChars_braced hinside]
      simp [written, Segment.text]
    rw [scan_cons hscan, ih, List.filterMap_cons, Segment.name?]
    simp only [Text.trimChars_eq_nil, List.all_eq_true]
    split <;> rfl

theorem name_word {letters : List Char} (hne : letters ≠ [])
    (hword : ∀ c ∈ letters, isWordChar c = true) :
    name (String.ofList ('$' :: letters)) = String.ofList letters := by
  have hplain : IsPlainName (String.ofList letters) := by
    refine isPlainName_of_isWordChar ?_ (by simpa using hword)
    simpa using hne
  refine name_of_spells hplain ?_
  rw [String.toList_ofList, String.toList_ofList]
  exact .dollar

theorem name_braced (inside : List Char) :
    name (String.ofList (Segment.braced inside).text) = String.ofList (Text.trimChars inside) := by
  rw [name, String.toList_ofList, Segment.text, nameOfTrimmed_braces]

theorem name_text {segments : List Segment} (h : Assembled segments) :
    ∀ segment ∈ segments, ∀ n, segment.name? = some n →
      name (String.ofList segment.text) = n := by
  induction h with
  | nil => simp
  | literal _ _ ih => exact List.forall_mem_cons.2 ⟨nofun, ih⟩
  | dollar _ _ ih => exact List.forall_mem_cons.2 ⟨nofun, ih⟩
  | word hne hword _ _ ih =>
    refine List.forall_mem_cons.2 ⟨fun n hn => ?_, ih⟩
    obtain rfl := Option.some.inj hn
    exact name_word hne hword
  | braced _ _ ih =>
    refine List.forall_mem_cons.2 ⟨fun n hn => ?_, ih⟩
    rw [Segment.name?] at hn
    split at hn
    · cases hn
    · obtain rfl := Option.some.inj hn
      exact name_braced _

/-- Every text is assembled from segments. Scanning it finds the names of its references in their
order and nothing else, and each is the name that the reference has by itself. -/
theorem scan_exactly :
    (∀ text : String, ∃ segments, Assembled segments ∧ String.ofList (written segments) = text) ∧
      ∀ segments, Assembled segments →
        scan (String.ofList (written segments)) = segments.filterMap Segment.name? ∧
          ∀ segment ∈ segments, ∀ n, segment.name? = some n →
            name (String.ofList segment.text) = n := by
  refine ⟨fun text => ?_, fun segments h => ⟨scan_written h, name_text h⟩⟩
  obtain ⟨segments, hsegments, hwritten⟩ := exists_assembled text.toList
  exact ⟨segments, hsegments, by rw [hwritten, String.ofList_toList]⟩

/-- A word that is followed by braces, blank braces, and braces that never close. -/
def callSegments : List Segment :=
  [.literal ['f', '('], .word ['2', 'a'], .braced [' ', '$', 'b', ' '], .literal [',', ' '],
    .braced [' ', '\t'], .dollar, .literal ['\x7b', ' '], .word ['_', 'x']]

theorem scan_exactly_call :
    Assembled callSegments ∧
      scan "f($2a$\x7b $b \x7d, $\x7b \t\x7d$\x7b $_x" = ["2a", "$b", "_x"] ∧
        name "$\x7b $b \x7d" = "$b" := by
  have hopen : ¬Begins (written [.literal ['\x7b', ' '], .word ['_', 'x']]) :=
    not_begins_brace (by decide)
  have hdigit : ∀ c ∈ ['2', 'a'], isWordChar c = true := by simp [isWordChar]
  have hletter : ∀ c ∈ ['_', 'x'], isWordChar c = true := by simp [isWordChar]
  have hassembled : Assembled callSegments := by
    refine .literal (by decide) (.word (by decide) hdigit ?_ (.braced (by decide) ?_))
    · simp [written, Segment.text, isWordChar]
    · refine .literal (by decide) (.braced (by decide) (.dollar hopen (.literal (by decide) ?_)))
      exact .word (by decide) hletter (by simp [written]) .nil
  obtain ⟨hscan, hname⟩ := scan_exactly.2 callSegments hassembled
  have hbraced := hname (.braced [' ', '$', 'b', ' ']) (by simp [callSegments]) "$b" (by decide)
  exact ⟨hassembled, hscan, hbraced⟩

end Reference
end CaseIntake
