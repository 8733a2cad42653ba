import BenchPlot.Formula.Template
import Mathlib.Data.List.TakeWhile

/-!
# Templates put together

A directive ends with its conversion, so no directive of a template reads into what stands behind the template, and the
pieces of two templates are the pieces of the one and then those of the other. Each directive takes one argument, in
order. So a template and its arguments give the same text in front of any other template with its arguments.

Main statement: `fillTemplate_append`.
-/

namespace BenchPlot

/-! ## §1 Pieces -/

theorem takePrecision_of_ne {c : Char} (hc : c ≠ '.') (cs : List Char) : takePrecision (c :: cs) = (none, c :: cs) := by
  unfold takePrecision
  split
  · rename_i heq
    exact absurd (List.cons.inj heq).1 hc
  · rfl

theorem takePrecision_append {cs rest : List Char} {c : Char} (h : (takePrecision cs).2 = c :: rest)
    (more : List Char) : takePrecision (cs ++ more) = ((takePrecision cs).1, c :: (rest ++ more)) := by
  cases cs with
  | nil => cases h
  | cons d cs =>
    rw [List.cons_append]
    by_cases hd : d = '.'
    · subst hd
      obtain ⟨htake, hdrop⟩ := Text.span_append (p := Decimal.isDigit) h more
      rw [takePrecision, htake, hdrop]
      rfl
    · rw [takePrecision_of_ne hd] at h ⊢
      cases h
      rw [takePrecision_of_ne hd]

/-- A directive that has its conversion is the same in front of more text. -/
theorem takeDirective_append {cs : List Char} (h : (takeDirective cs).1 ≠ .unfinished) (more : List Char) :
    takeDirective (cs ++ more) = ((takeDirective cs).1, (takeDirective cs).2 ++ more) := by
  unfold takeDirective at h ⊢
  dsimp only at h ⊢
  cases hrest : (takePrecision ((cs.dropWhile isFlag).dropWhile Decimal.isDigit)).2 with
  | nil =>
    rw [hrest] at h
    exact absurd rfl h
  | cons c rest =>
    -- The conversion stands behind the flags, the width and the precision, so none of them ends with the text.
    cases hdigits : (cs.dropWhile isFlag).dropWhile Decimal.isDigit with
    | nil =>
      rw [hdigits] at hrest
      cases hrest
    | cons d ds =>
      cases hflags : cs.dropWhile isFlag with
      | nil =>
        rw [hflags] at hdigits
        cases hdigits
      | cons e es =>
        obtain ⟨htake, hdrop⟩ := Text.span_append hflags more
        obtain ⟨htake', hdrop'⟩ := Text.span_append (hflags ▸ hdigits) more
        rw [hdigits] at hrest
        have hprecision := takePrecision_append hrest more
        rw [List.cons_append] at htake' hdrop' hprecision
        rw [htake, hdrop, htake', hdrop', hprecision]

theorem templatePieces_percent (cs : List Char) :
    templatePieces ('%' :: '%' :: cs) = .char '%' :: templatePieces cs := by
  rw [templatePieces]

theorem templatePieces_directive {cs : List Char} (h : cs.head? ≠ some '%') :
    templatePieces ('%' :: cs) = (takeDirective cs).1 :: templatePieces (takeDirective cs).2 := by
  rw [templatePieces]
  rintro rest rfl
  exact h rfl

theorem templatePieces_char {c : Char} (hc : c ≠ '%') (cs : List Char) :
    templatePieces (c :: cs) = .char c :: templatePieces cs := by
  rw [templatePieces]
  · rintro rest rfl
    exact absurd rfl hc
  · rintro rfl
    exact hc rfl

/-- Pieces without a directive that the template ends in are the same in front of more text. -/
theorem templatePieces_append {cs : List Char} (h : .unfinished ∉ templatePieces cs) (more : List Char) :
    templatePieces (cs ++ more) = templatePieces cs ++ templatePieces more := by
  fun_induction templatePieces cs with
  | case1 => rfl
  | case2 rest ih =>
    rw [List.cons_append, List.cons_append, templatePieces_percent, ih (fun hmem => h (List.mem_cons_of_mem _ hmem)),
      List.cons_append]
  | case3 rest hpercent hlength ih =>
    have hfirst : (takeDirective rest).1 ≠ .unfinished := fun hfirst => h (hfirst ▸ List.mem_cons_self ..)
    have hhead : (rest ++ more).head? ≠ some '%' := by
      cases rest with
      | nil => exact absurd rfl hfirst
      | cons c rest =>
        intro hc
        obtain rfl := Option.some.inj hc
        exact hpercent rest rfl
    rw [List.cons_append, templatePieces_directive hhead, takeDirective_append hfirst,
      ih (fun hmem => h (List.mem_cons_of_mem _ hmem)), List.cons_append]
  | case4 c rest hpercent hc ih =>
    have hplain : c ≠ '%' := fun heq => hc heq
    rw [List.cons_append, templatePieces_char hplain, ih (fun hmem => h (List.mem_cons_of_mem _ hmem)),
      List.cons_append]

/-- Characters stand for themselves if none of them is a percent sign. -/
theorem templatePieces_of_notMem {cs : List Char} (h : '%' ∉ cs) : templatePieces cs = cs.map .char := by
  induction cs with
  | nil => rw [templatePieces, List.map_nil]
  | cons c cs ih =>
    obtain ⟨hc, hcs⟩ : '%' ≠ c ∧ '%' ∉ cs := by simpa using h
    rw [templatePieces_char (Ne.symm hc), ih hcs, List.map_cons]

/-- A percent sign that is written twice stands for itself. -/
theorem templatePieces_doubled (cs : List Char) :
    templatePieces (cs.flatMap fun c => if c == '%' then ['%', '%'] else [c]) = cs.map .char := by
  induction cs with
  | nil => rw [List.flatMap_nil, templatePieces, List.map_nil]
  | cons c cs ih =>
    rw [List.flatMap_cons, List.map_cons]
    by_cases hc : c = '%'
    · subst hc
      exact (templatePieces_percent _).trans (congrArg _ ih)
    · rw [if_neg (by simpa using hc)]
      exact (templatePieces_char hc _).trans (congrArg _ ih)

/-! ## §2 Filling -/

/-- The number of arguments that pieces take: one for each directive. -/
def argumentCount (pieces : List TemplatePiece) : Nat :=
  pieces.countP fun
    | .directive _ => true
    | _ => false

theorem argumentCount_char (c : Char) (pieces : List TemplatePiece) :
    argumentCount (.char c :: pieces) = argumentCount pieces := by
  simp [argumentCount]

theorem argumentCount_directive (d : Directive) (pieces : List TemplatePiece) :
    argumentCount (.directive d :: pieces) = argumentCount pieces + 1 := by
  simp [argumentCount]

variable {template : String} {pieces : List TemplatePiece} {args : List Value} {s : String}

theorem fillPieces_chars (template : String) (cs : List Char) (args : List Value) :
    fillPieces template (cs.map .char) args = .ok (String.ofList cs) := by
  induction cs with
  | nil => rfl
  | cons c cs ih =>
    rw [List.map_cons, fillPieces, ih]
    refine congrArg Except.ok (String.toList_inj.mp ?_)
    simp [Char.toString]

/-- A template that can be filled does not end in a directive. -/
theorem unfinished_notMem_of_fillPieces (h : fillPieces template pieces args = .ok s) : .unfinished ∉ pieces := by
  fun_induction fillPieces template pieces args generalizing s with
  | case1 => exact List.not_mem_nil
  | case2 => cases h
  | case3 c pieces args rest hrest ih => simpa using ih hrest
  | case4 => cases h
  | case5 => cases h
  | case6 => cases h
  | case7 => cases h
  | case8 d pieces value args body hbody rest hrest ih => simpa using ih hrest

/-- The template is named in messages only. -/
theorem fillPieces_ok_template (h : fillPieces template pieces args = .ok s) (other : String) :
    fillPieces other pieces args = .ok s := by
  fun_induction fillPieces template pieces args generalizing s with
  | case1 => exact h
  | case2 => cases h
  | case3 c pieces args rest hrest ih => rw [fillPieces, ih hrest]; exact h
  | case4 => cases h
  | case5 => cases h
  | case6 => cases h
  | case7 => cases h
  | case8 d pieces value args body hbody rest hrest ih => rw [fillPieces, hbody, ih hrest]; exact h

/-- Pieces need as many arguments as they take, and no more. -/
theorem fillPieces_take (h : fillPieces template pieces args = .ok s) :
    argumentCount pieces ≤ args.length ∧ fillPieces template pieces (args.take (argumentCount pieces)) = .ok s := by
  fun_induction fillPieces template pieces args generalizing s with
  | case1 => exact ⟨Nat.zero_le _, h⟩
  | case2 => cases h
  | case3 c pieces args rest hrest ih =>
    obtain ⟨hlength, htake⟩ := ih hrest
    rw [argumentCount_char, fillPieces, htake]
    exact ⟨hlength, h⟩
  | case4 => cases h
  | case5 => cases h
  | case6 => cases h
  | case7 => cases h
  | case8 d pieces value args body hbody rest hrest ih =>
    obtain ⟨hlength, htake⟩ := ih hrest
    rw [argumentCount_directive, List.take_succ_cons, fillPieces, hbody, htake]
    exact ⟨Nat.succ_le_succ hlength, h⟩

/-- Pieces that take all of their arguments leave the further ones to the pieces behind them. -/
theorem fillPieces_append (h : fillPieces template pieces args = .ok s) (hexact : argumentCount pieces = args.length)
    (more : List TemplatePiece) (others : List Value) :
    fillPieces template (pieces ++ more) (args ++ others) = (fillPieces template more others).map (s ++ ·) := by
  fun_induction fillPieces template pieces args generalizing s with
  | case1 args =>
    cases h
    obtain rfl := List.eq_nil_of_length_eq_zero hexact.symm
    cases hmore : fillPieces template more others with
    | error e => exact hmore
    | ok rest => exact hmore.trans (congrArg Except.ok (String.empty_append ..).symm)
  | case2 => cases h
  | case3 c pieces args front hfront ih =>
    cases h
    rw [argumentCount_char] at hexact
    rw [List.cons_append, fillPieces, ih hfront hexact]
    cases fillPieces template more others with
    | error e => rfl
    | ok rest => exact congrArg Except.ok (String.append_assoc ..).symm
  | case4 => cases h
  | case5 => cases h
  | case6 => cases h
  | case7 => cases h
  | case8 d pieces value args body hbody front hfront ih =>
    cases h
    rw [argumentCount_directive] at hexact
    rw [List.cons_append, List.cons_append, fillPieces, hbody, ih hfront (Nat.succ.inj hexact)]
    cases fillPieces template more others with
    | error e => rfl
    | ok rest => exact congrArg Except.ok (String.append_assoc ..).symm

/-! ## §3 Templates -/

/-- A template and exactly the arguments that it takes give the same text in front of every template, and the whole can
    be filled exactly if the template behind it can. -/
theorem fillTemplate_append_of_exact {t₁ t₂ : String} {a₁ a₂ : List Value} {s₁ : String}
    (h : fillTemplate t₁ a₁ = .ok s₁) (hexact : argumentCount (templatePieces t₁.toList) = a₁.length) (s : String) :
    fillTemplate (t₁ ++ t₂) (a₁ ++ a₂) = .ok s ↔ ∃ s₂, fillTemplate t₂ a₂ = .ok s₂ ∧ s = s₁ ++ s₂ := by
  unfold fillTemplate at h ⊢
  rw [String.toList_append, templatePieces_append (unfinished_notMem_of_fillPieces h),
    fillPieces_append (fillPieces_ok_template h _) hexact]
  constructor
  · intro hs
    cases hrest : fillPieces (t₁ ++ t₂) (templatePieces t₂.toList) a₂ with
    | error e =>
      rw [hrest] at hs
      cases hs
    | ok s₂ =>
      rw [hrest] at hs
      exact ⟨s₂, fillPieces_ok_template hrest _, (Except.ok.inj hs).symm⟩
  · rintro ⟨s₂, hs₂, rfl⟩
    rw [fillPieces_ok_template hs₂]
    rfl

/-- Filling goes through a template piece by piece. A template that takes all of its arguments gives its text in front
    of every other template with its own arguments, and the whole can be filled exactly if the other template can. A
    template without a percent sign stands for itself, and so does every text in which percent signs are written
    twice. -/
theorem fillTemplate_append :
    (∀ (t₁ t₂ : String) (a₁ a₂ : List Value) (s₁ : String), fillTemplate t₁ a₁ = .ok s₁ →
      (∀ front, front <+: a₁ → front ≠ a₁ → ∀ s, fillTemplate t₁ front ≠ .ok s) →
      ∀ s, fillTemplate (t₁ ++ t₂) (a₁ ++ a₂) = .ok s ↔ ∃ s₂, fillTemplate t₂ a₂ = .ok s₂ ∧ s = s₁ ++ s₂) ∧
    (∀ (t : String) (args : List Value), '%' ∉ t.toList → fillTemplate t args = .ok t) ∧
    (∀ (t : String) (args : List Value), fillTemplate (Text.replaceChar '%' ['%', '%'] t) args = .ok t) := by
  refine ⟨fun t₁ t₂ a₁ a₂ s₁ h hleast => ?_, fun t args ht => ?_, fun t args => ?_⟩
  · -- The arguments that the directives take suffice, so they are all that there are.
    obtain ⟨hlength, htake⟩ := fillPieces_take h
    refine fillTemplate_append_of_exact h (le_antisymm hlength ?_)
    by_contra hless
    refine hleast _ (List.take_prefix ..) (fun heq => hless ?_) s₁ htake
    rw [← heq]
    exact List.length_take_le ..
  · rw [fillTemplate, templatePieces_of_notMem ht, fillPieces_chars, String.ofList_toList]
  · rw [fillTemplate, Text.replaceChar, String.toList_ofList, templatePieces_doubled, fillPieces_chars,
      String.ofList_toList]

theorem fillTemplate_append_words :
    fillTemplate "%2s|" [.text "a"] = .ok " a|" ∧ (∀ s, fillTemplate "%2s|" [] ≠ .ok s) ∧
      fillTemplate ("%2s|" ++ "%s") ([.text "a"] ++ [.text "b"]) = .ok (" a|" ++ "b") := by
  have hwide : takeDirective ['2', 's', '|'] = (.directive ⟨false, false, false, 2, none, 's'⟩, ['|']) := by decide
  have hplain : takeDirective ['s'] = (.directive ⟨false, false, false, 0, none, 's'⟩, []) := by decide
  have hpieces : templatePieces "%2s|".toList = [.directive ⟨false, false, false, 2, none, 's'⟩, .char '|'] := by
    have htext : "%2s|".toList = ['%', '2', 's', '|'] := by decide
    rw [htext, templatePieces_directive (by decide), hwide, templatePieces_of_notMem (by decide)]
    rfl
  have hpieces' : templatePieces "%s".toList = [.directive ⟨false, false, false, 0, none, 's'⟩] := by
    have htext : "%s".toList = ['%', 's'] := by decide
    rw [htext, templatePieces_directive (by decide), hplain, templatePieces_of_notMem (by decide)]
    rfl
  have hfirst : fillTemplate "%2s|" [.text "a"] = .ok " a|" := by
    rw [fillTemplate, hpieces]
    rfl
  have hnone (s : String) : fillTemplate "%2s|" [] ≠ .ok s := by
    rw [fillTemplate, hpieces]
    exact nofun
  have hsecond : fillTemplate "%s" [.text "b"] = .ok "b" := by
    rw [fillTemplate, hpieces']
    rfl
  refine ⟨hfirst, hnone, (fillTemplate_append.1 _ _ _ _ _ hfirst ?_ _).mpr ⟨"b", hsecond, rfl⟩⟩
  intro front hfront hne s
  obtain rfl | ⟨rest, rfl, hrest⟩ := List.prefix_cons_iff.mp hfront
  · exact hnone s
  · exact absurd (congrArg _ (List.prefix_nil.mp hrest)) hne

end BenchPlot
