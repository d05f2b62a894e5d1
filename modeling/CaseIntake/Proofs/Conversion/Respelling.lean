import CaseIntake.Proofs.Action
import CaseIntake.Proofs.Conversion.Arguments
import CaseIntake.Proofs.Conversion.Collect
import CaseIntake.Proofs.Conversion.Identifiers
import CaseIntake.Proofs.Conversion.Inputs
import CaseIntake.Proofs.Validation.Respelling

/-!
# CaseIntake.Proofs.Conversion.Respelling

It does not matter how references are spelled: `convert_of_respelled`.

* `ofTest_of_respelled`: a canonical case keeps its arguments as they are written, and nothing else
  of its specification depends on how they are spelled.
* `ofSimple_of_respelled`: a simplified case passes the variables that its arguments refer to, so
  its specification does not depend on the spelling at all.
-/

namespace CaseIntake

/-! ## Respelled actions -/

/-- Parts between commas, among them references to known names that are spelled in another way. -/
structure PartsRespelled (setup : Dict Value) (parts parts' : List String) : Prop where
  spelled : List.Forall₂ (Reference.Respelled fun n => setup.contains n = true) parts parts'
  commas : ∀ part ∈ parts, ',' ∉ part.toList
  commas' : ∀ part ∈ parts', ',' ∉ part.toList

/-- The same value, or two texts that spell a reference to a known name. -/
inductive Value.Respelled (setup : Dict Value) : Value → Value → Prop where
  | same {v : Value} : Respelled setup v v
  | text {a b : String} : Reference.Respelled (fun n => setup.contains n = true) a b →
      Respelled setup (.string a) (.string b)

/-- The same action with references among its positional arguments spelled in another way. -/
inductive Action.Respelled (setup : Dict Value) : Action → Action → Prop where
  | call {before after : String} {parts parts' : List String} : '(' ∉ before.toList →
      ')' ∉ after.toList → PartsRespelled setup parts parts' →
      Respelled setup (.call (before ++ "(" ++ ",".intercalate parts ++ ")" ++ after))
        (.call (before ++ "(" ++ ",".intercalate parts' ++ ")" ++ after))
  | text {function : Option String} {order : List String} {parts parts' : List String} :
      PartsRespelled setup parts parts' →
      Respelled setup (.structured ⟨function, some (.text (",".intercalate parts)), order⟩)
        (.structured ⟨function, some (.text (",".intercalate parts')), order⟩)
  | list {function : Option String} {order : List String} {values values' : List Value} :
      List.Forall₂ (Value.Respelled setup) values values' →
      Respelled setup (.structured ⟨function, some (.positional values), order⟩)
        (.structured ⟨function, some (.positional values'), order⟩)

structure SimpleCase.Respelled (c d : SimpleCase) : Prop where
  action : c.action = d.action ∨
    ∃ a b, c.action = some a ∧ d.action = some b ∧ a.Respelled c.setup b
  rest : d = { c with action := d.action }

/-- The same argument, or two texts that refer to one variable. -/
def Argument.Identified (env : Environment) (a b : Argument) : Prop :=
  a = b ∨ ∃ x y, a = .positional (.string x) ∧ b = .positional (.string y) ∧ env.Identifies x y

section Arguments

variable {setup : Dict Value}

theorem identifies_setup {a b : String}
    (h : Reference.Respelled (fun n => setup.contains n = true) a b) :
    (Environment.ofSetup setup).Identifies a b :=
  h.eq_or_name_eq

/-- A part that spells a name is one piece, and so are its other spellings. -/
theorem commaPieces_of_respelled {a b : String}
    (h : Reference.Respelled (fun n => setup.contains n = true) a b) (ha : ',' ∉ a.toList)
    (hb : ',' ∉ b.toList) :
    List.Forall₂ (Environment.ofSetup setup).Identifies (Text.commaPieces a.toList)
      (Text.commaPieces b.toList) := by
  cases h with
  | same => exact List.forall₂_same.2 fun _ _ => Or.inl rfl
  | @spelled n _ _ hplain hknown hsa hsb =>
    have hna := Reference.name_of_spells hplain hsa
    have hnb := Reference.name_of_spells hplain hsb
    have hne {token : String} (hname : Reference.name token = n) :
        Text.trimChars token.toList ≠ [] := by
      intro hnil
      rw [Reference.name, hnil] at hname
      exact hplain.ne_empty hname.symm
    rw [Text.commaPieces_of_not_mem ha, Text.commaPieces_of_not_mem hb, if_neg (hne hna),
      if_neg (hne hnb)]
    refine .cons (Or.inr ⟨?_, ?_⟩) .nil
    · rw [Reference.name_trimmed, Reference.name_trimmed, hna, hnb]
    · rw [Reference.name_trimmed, hna]
      exact hknown

theorem PartsRespelled.commaPieces {parts parts' : List String}
    (h : PartsRespelled setup parts parts') :
    List.Forall₂ (Environment.ofSetup setup).Identifies
      (Text.commaPieces (",".intercalate parts).toList)
      (Text.commaPieces (",".intercalate parts').toList) := by
  have hpieces (texts : List String) (hcommas : ∀ text ∈ texts, ',' ∉ text.toList) :
      Text.commaPieces (",".intercalate texts).toList =
        texts.flatMap fun text => Text.commaPieces text.toList := by
    have hjoined :
        (",".intercalate texts).toList = [','].intercalate (texts.map String.toList) := by
      simp
    rw [hjoined, Text.commaPieces_parts, List.flatMap_map]
    intro part hpart
    obtain ⟨text, htext, rfl⟩ := List.mem_map.1 hpart
    exact hcommas text htext
  rw [hpieces parts h.commas, hpieces parts' h.commas']
  obtain ⟨hparts, hcommas, hcommas'⟩ := h
  induction hparts with
  | nil => exact .nil
  | cons hab _ ih =>
    obtain ⟨ha, hrest⟩ := List.forall_mem_cons.1 hcommas
    obtain ⟨hb, hrest'⟩ := List.forall_mem_cons.1 hcommas'
    exact List.rel_append (commaPieces_of_respelled hab ha hb) (ih hrest hrest')

theorem identified_textArguments {env : Environment} {texts texts' : List String}
    (h : List.Forall₂ env.Identifies texts texts') :
    List.Forall₂ (Argument.Identified env) (textArguments texts) (textArguments texts') := by
  rw [textArguments, textArguments, List.forall₂_map_left_iff, List.forall₂_map_right_iff]
  exact h.imp fun a b hab => Or.inr ⟨a, b, rfl, rfl, hab⟩

theorem Action.Respelled.arguments {a b : Action} (h : a.Respelled setup b) :
    ∃ args args', a.arguments = some args ∧ b.arguments = some args' ∧
      List.Forall₂ (Argument.Identified (Environment.ofSetup setup)) args args' := by
  cases h with
  | call hbefore hafter hparts =>
    refine ⟨_, _, rfl, rfl, ?_⟩
    rw [callArguments_parentheses hbefore hafter, callArguments_parentheses hbefore hafter]
    exact identified_textArguments hparts.commaPieces
  | text hparts => exact ⟨_, _, rfl, rfl, identified_textArguments hparts.commaPieces⟩
  | list hvalues =>
    refine ⟨_, _, rfl, rfl, ?_⟩
    simp only [StructuredAction.arguments, List.forall₂_map_left_iff, List.forall₂_map_right_iff]
    refine hvalues.imp fun v w hvw => ?_
    cases hvw with
    | same => exact Or.inl rfl
    | text hab => exact Or.inr ⟨_, _, rfl, rfl, identifies_setup hab⟩

end Arguments

namespace Conversion

/-! ## Passing respelled arguments -/

theorem placeArgument_of_identified {env : Environment} {a b : Argument}
    (h : a.Identified env b) (index : Nat) (inputs : Dict Value) :
    placeArgument env index a inputs = placeArgument env index b inputs := by
  rcases h with rfl | ⟨x, y, rfl, rfl, hxy⟩
  · rfl
  · rcases Environment.resolve_of_identifies hxy with rfl | ⟨name, value, hx, hy⟩
    · rfl
    · rw [placeArgument, placeArgument, hx, hy]

theorem placeAll_of_identified {env : Environment} {args args' : List Argument}
    (h : List.Forall₂ (Argument.Identified env) args args') (index : Nat) (inputs : Dict Value) :
    placeAll env index args inputs = placeAll env index args' inputs := by
  induction h generalizing index inputs with
  | nil => rfl
  | cons hab _ ih =>
    rw [placeAll, placeAll, placeArgument_of_identified hab]
    simp only [ih]

theorem ofSimple_of_respelled {c d : SimpleCase} (h : c.Respelled d) (ctx : Context) (id : String) :
    ofSimple ctx id c = ofSimple ctx id d := by
  rcases h.action with hsame | ⟨a, b, ha, hb, hab⟩
  · rw [h.rest, ← hsame]
  · obtain ⟨args, args', hargs, hargs', hforall⟩ := hab.arguments
    have hc : argumentsOf c = .ok args := argumentsOf_eq_ok_iff.2 (Or.inr ⟨a, ha, hargs⟩)
    have hd : argumentsOf d = .ok args' := argumentsOf_eq_ok_iff.2 (Or.inr ⟨b, hb, hargs'⟩)
    have hsetup : d.setup = c.setup := by rw [h.rest]
    have hinputs : inputsOfSimple d = inputsOfSimple c := by
      rw [inputsOfSimple, inputsOfSimple, hc, hd, hsetup]
      simp only [placeAll_of_identified hforall]
    rw [ofSimple, ofSimple, hinputs, h.rest]
    rfl

/-! ## Keeping respelled arguments -/

/-- The specification of the second case is that of the first one, with the arguments as the second
case writes them. -/
structure Reordered (c d : TestCase) (spec spec' : Spec) : Prop where
  written : spec.argOrder = c.action.args
  rewritten : spec'.anonymous = { spec.anonymous with argOrder := d.action.args }

theorem find?_of_forall₂ {α : Type} {p : α → Bool} {xs ys : List α}
    (h : List.Forall₂ (fun x y => x = y ∨ p x = false ∧ p y = false) xs ys) :
    xs.find? p = ys.find? p := by
  induction h with
  | nil => rfl
  | cons hxy _ ih =>
    rcases hxy with rfl | ⟨hx, hy⟩
    · simp only [List.find?_cons, ih]
    · simp only [List.find?_cons, hx, hy, ih]

/-- The first argument without a variable, if there is one, was not respelled. -/
theorem find?_of_respelled {c d : TestCase} (h : c.Respelled d) {values : Dict Value}
    (hvalues : declareAll c.given .empty = .ok values) :
    (d.action.args.find? fun arg => !values.contains (Reference.name arg)) =
      c.action.args.find? fun arg => !values.contains (Reference.name arg) := by
  obtain ⟨hnodup, -⟩ := nodup_of_declareAll hvalues
  obtain rfl := Except.ok.inj ((declareAll_eq_ok hnodup).symm.trans hvalues)
  refine (find?_of_forall₂ (h.args.imp fun a b hab => ?_)).symm
  rcases hab.eq_or_name_eq with rfl | ⟨hname, hknown⟩
  · exact Or.inl rfl
  · have hcontains := (Variable.contains_table hnodup).2 hknown
    rw [← hname, hcontains]
    exact Or.inr ⟨rfl, rfl⟩

theorem ofTest_of_respelled {c d : TestCase} (h : c.Respelled d) (ctx : Context)
    (id id' : String) : Alike (Reordered c d) (ofTest ctx id c) (ofTest ctx id' d) := by
  have hgiven : d.given = c.given := by rw [h.rest]
  rw [ofTest, ofTest, inputsOfTest, inputsOfTest, hgiven]
  cases hvalues : declareAll c.given .empty with
  | error e => exact .error
  | ok values =>
    simp only [find?_of_respelled h hvalues]
    cases c.action.args.find? fun arg => !values.contains (Reference.name arg) with
    | some arg => exact .error
    | none =>
      refine .ok ⟨rfl, ?_⟩
      rw [h.rest]
      rfl

/-! ## All cases -/

theorem forall₂_mem_zip {α β : Type} {R : α → β → Prop} {xs : List α} {ys : List β}
    (h : List.Forall₂ R xs ys) :
    List.Forall₂ (fun x y => R x y ∧ (x, y) ∈ xs.zip ys) xs ys := by
  rw [List.forall₂_iff_zip] at h ⊢
  exact ⟨h.1, fun hmem => ⟨h.2 hmem, hmem⟩⟩

/-- Other spellings of references to declared variables leave the report of a suite as it is. They
change the order of arguments in its specifications, where arguments stand as they are written, and
nothing else. Simplified cases, of which references to the set-up are spelled in another way, become
the same specifications, up to their identifiers. -/
theorem convert_of_respelled {s t : Suite} {cs ds : List SimpleCase} (hsuite : s.Respelled t)
    (hcases : List.Forall₂ SimpleCase.Respelled cs ds) (o : Options) (target : Target)
    (ids ids' : Nat → String) :
    t.validate o = s.validate o ∧
      Alike (Pairs fun spec spec' =>
          ∃ c d, (c, d) ∈ s.tests.zip t.tests ∧ Reordered c d spec spec')
        (s.convert ids target o) (t.convert ids' target o) ∧
      Alike (Pairs fun spec spec' => spec'.anonymous = spec.anonymous)
        (SimpleCase.convertAll cs ids target o) (SimpleCase.convertAll ds ids' target o) := by
  refine ⟨Validation.validate_of_respelled hsuite o, ?suite, ?cases⟩
  case suite =>
    have hname : t.functionName = s.functionName := by rw [hsuite.rest]
    rw [Suite.convert, Suite.convert, ofSuite, ofSuite, hname]
    refine alike_accept (pairs_collect ?_ ?_ (forall₂_mem_zip hsuite.tests) ids ids' 0)
    · rintro c d ⟨hcd, -⟩
      rw [hcd.rest]
    · rintro c d ⟨hcd, hmem⟩ id id'
      exact (ofTest_of_respelled hcd _ id id').imp fun spec spec' h => ⟨c, d, hmem, h⟩
  case cases =>
    rw [SimpleCase.convertAll, SimpleCase.convertAll, ofCases, ofCases]
    refine alike_accept (pairs_collect ?_ ?_ hcases ids ids' 0)
    · rintro c d hcd
      rw [hcd.rest]
    · rintro c d hcd id id'
      refine alike_of_map_anonymous_eq ?_
      rw [ofSimple_anonymous _ id id' c, ofSimple_of_respelled hcd]

/-- A bare name, one after a dollar sign and one in braces, with blanks or without. -/
theorem convert_of_respelled_padded :
    let given : List Variable := [.new "a" (.int 1) "int", .new "b" .null "null"]
    let suite (args : List String) : Suite :=
      ⟨"F", none, [⟨"n", none, given, ⟨"F($a)", args⟩, [], []⟩]⟩
    let simple (action : Action) : SimpleCase :=
      ⟨"n", none, .ofList [("a", .int 1)], some action, none, none, none, none, none, []⟩
    let cs := [simple (.call "F(a, 1)"),
      simple (.structured ⟨none, some (.positional [.string "$a", .int 2]), []⟩)]
    let ds := [simple (.call "F(${ a }, 1)"),
      simple (.structured ⟨none, some (.positional [.string " a ", .int 2]), []⟩)]
    let s := suite ["a", "$b"]
    let t := suite ["${ a }", "b"]
    s.Respelled t ∧ List.Forall₂ SimpleCase.Respelled cs ds ∧
      t.validate .standard = s.validate .standard ∧
      Alike (Pairs fun spec spec' =>
          ∃ c d, (c, d) ∈ s.tests.zip t.tests ∧ Reordered c d spec spec')
        (s.convert (fun _ => "1") (.function "F") .standard)
        (t.convert (fun _ => "2") (.function "F") .standard) ∧
      Alike (Pairs fun spec spec' => spec'.anonymous = spec.anonymous)
        (SimpleCase.convertAll cs (fun _ => "1") (.function "F") .standard)
        (SimpleCase.convertAll ds (fun _ => "2") (.function "F") .standard) := by
  intro given suite simple cs ds s t
  have ha : Reference.IsPlainName "a" := Reference.isPlainName_of_isIdentifier (by decide +kernel)
  have hb : Reference.IsPlainName "b" := Reference.isPlainName_of_isIdentifier (by decide +kernel)
  have hblank : ∀ c ∈ [' '], Text.isBlank c = true := List.forall_mem_singleton.2 rfl
  have hbare : Reference.Spells "a".toList "a".toList := .bare
  have hdollar (n : List Char) : Reference.Spells n ('$' :: n) := .dollar
  have hbraced : Reference.Spells "a".toList "${ a }".toList := by
    have := Reference.Spells.braced (n := ['a']) hblank hblank
    exact this
  have hpadded : Reference.Spells "a".toList " a ".toList := by
    have := Reference.Spells.padded (n := ['a']) hblank hblank .bare
    exact this
  have hknown : (Dict.ofList [("a", Value.int 1)]).contains "a" = true := by decide +kernel
  have hsuite : s.Respelled t := by
    refine ⟨.cons ⟨?_, rfl⟩ .nil, rfl⟩
    refine .cons (.spelled ha ⟨_, .head _, rfl⟩ hbare hbraced) (.cons ?_ .nil)
    exact .spelled hb ⟨_, .tail _ (.head _), rfl⟩ (hdollar ['b']) .bare
  have hparts : PartsRespelled (.ofList [("a", .int 1)]) ["a", " 1"] ["${ a }", " 1"] :=
    ⟨.cons (.spelled ha hknown hbare hbraced) (.cons .same .nil), by decide +kernel,
      by decide +kernel⟩
  have hcall : Action.Respelled (.ofList [("a", .int 1)]) (.call "F(a, 1)")
      (.call "F(${ a }, 1)") := by
    have := @Action.Respelled.call _ "F" "" _ _ (by decide +kernel) (by decide +kernel) hparts
    exact this
  have hlist : List.Forall₂ (Value.Respelled (.ofList [("a", .int 1)])) [.string "$a", .int 2]
      [.string " a ", .int 2] :=
    .cons (.text (.spelled ha hknown (hdollar ['a']) hpadded)) (.cons .same .nil)
  have hcases : List.Forall₂ SimpleCase.Respelled cs ds :=
    .cons ⟨.inr ⟨_, _, rfl, rfl, hcall⟩, rfl⟩ (.cons ⟨.inr ⟨_, _, rfl, rfl, .list hlist⟩, rfl⟩ .nil)
  exact ⟨hsuite, hcases, convert_of_respelled hsuite hcases .standard (.function "F")
    (fun _ => "1") (fun _ => "2")⟩

end Conversion
end CaseIntake
