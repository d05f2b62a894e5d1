import CaseIntake.Text.Split

/-!
# References

A variable is referred to by its bare name, as `$name`, or as `${name}`. `Reference.name` takes the
name out of one reference, and `Reference.scan` finds the references with a dollar sign in free
text.
-/

namespace CaseIntake
namespace Reference

/-- A character of a name in `$name`: an ASCII letter or digit, or an underscore. -/
def isWordChar (c : Char) : Bool :=
  ('a' ≤ c && c ≤ 'z') || ('A' ≤ c && c ≤ 'Z') || ('0' ≤ c && c ≤ '9') || c = '_'

/-- The inside of `${…}`. -/
def braced? (cs : List Char) : Option (List Char) :=
  match cs with
  | '$' :: '\x7b' :: rest => Text.dropEnd? ['\x7d'] rest
  | _ => none

/-- The name that a trimmed reference refers to. -/
def nameOfTrimmed (cs : List Char) : List Char :=
  match braced? cs with
  | some inner => Text.trimChars inner
  | none =>
    match cs with
    | '$' :: rest => rest
    | cs => cs

/-- The name without the signs of a reference. Blanks around the reference and inside the braces do
not count. -/
def name (token : String) : String :=
  String.ofList (nameOfTrimmed (Text.trimChars token.toList))

/-- What follows the first `c` is shorter than the whole. -/
theorem length_after_lt {c : Char} :
    ∀ {cs before after : List Char}, Text.breakAt c cs = some (before, after) →
      after.length < cs.length
  | [], _, _, h => by simp [Text.breakAt] at h
  | d :: ds, before, after, h => by
    rw [Text.breakAt] at h
    split at h
    · simp only [Option.some.injEq, Prod.mk.injEq] at h
      simp [← h.2]
    · simp only [Option.map_eq_some_iff] at h
      obtain ⟨⟨b, a⟩, hb, heq⟩ := h
      simp only [Prod.mk.injEq] at heq
      have := length_after_lt hb
      rw [← heq.2]
      simp only [List.length_cons]
      omega

/-- The references in a text as they are written, in order: the inside of `${…}`, or the longest
word after a dollar sign. -/
def scanChars (cs : List Char) : List (List Char) :=
  match cs with
  | [] => []
  | '$' :: '\x7b' :: body =>
    match _found : Text.breakAt '\x7d' body with
    | some (inner, after) => inner :: scanChars after
    | none => scanChars body
  | '$' :: rest =>
    let word := rest.takeWhile isWordChar
    if word.isEmpty then scanChars rest else word :: scanChars (rest.dropWhile isWordChar)
  | _ :: rest => scanChars rest
termination_by cs.length
decreasing_by
  · have := length_after_lt _found
    simp only [List.length_cons]
    omega
  · simp only [List.length_cons]
    omega
  · simp
  · have := (List.dropWhile_sublist isWordChar (l := rest)).length_le
    simp only [List.length_cons]
    omega
  · simp

/-- The names referred to in a text, in order of appearance. -/
def scan (text : String) : List String :=
  (((scanChars text.toList).map Text.trimChars).filter (!·.isEmpty)).map String.ofList

/-- Whether a name has only word characters and starts with no digit. -/
def isIdentifier (name : String) : Bool :=
  match name.toList with
  | [] => false
  | c :: cs => isWordChar c && !('0' ≤ c && c ≤ '9') && cs.all isWordChar

end Reference
end CaseIntake
