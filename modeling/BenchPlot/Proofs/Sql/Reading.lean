import BenchPlot.Proofs.Sql.Scanning
import BenchPlot.Sql.Statement
import Mathlib

/-!
# Reading put-together conditions

A condition is put together from expressions between parentheses with `AND` between them. What is open in
front of a parenthesis is not touched before the parenthesis is closed, so an expression in parentheses is
read as it is read alone; and no clause starts inside of parentheses. So the text is read as the conjunction
of its expressions, whatever operators stand in them.

Main statements: `ReadsAs.intercalate_and`, `ReadsAs.parse?` for the text with an order behind it, and
`IsExpression.parse?` for one expression that stands alone.
-/

namespace BenchPlot.Sql

/-- Whether an open part is an open parenthesis. -/
def Frame.isParen : Frame → Bool
  | .group | .members .. => true
  | _ => false

namespace TermReader

/-! ## §1 What stays below a parenthesis -/

/-- A reader inside a parenthesis, with what is open in front of it. -/
def inside (r : TermReader) (below : List Frame) : TermReader :=
  ⟨r.expects, r.frames ++ .group :: below⟩

variable {r r' : TermReader} {l : Lexeme} {t u : WrittenTerm} {frames below : List Frame} {level : Nat}

theorem closeFrames_inside (level : Nat) (t : WrittenTerm) (frames below : List Frame) :
    closeFrames level t (frames ++ .group :: below)
      = ((closeFrames level t frames).1, (closeFrames level t frames).2 ++ .group :: below) := by
  fun_induction closeFrames level t frames with
  | case1 => rfl
  | case2 t f rest closed hclosed ih =>
    rw [List.cons_append, closeFrames, hclosed]
    exact ih
  | case3 t f rest hopen =>
    rw [List.cons_append, closeFrames, hopen]

theorem pushInfix_inside (op : BinaryOp) (negated : Bool) (t : WrittenTerm) (frames below : List Frame) :
    pushInfix op negated t (frames ++ .group :: below) = (pushInfix op negated t frames).inside below := by
  rw [pushInfix, closeFrames_inside]
  rfl

theorem pushAnd_inside (t : WrittenTerm) (frames below : List Frame) :
    pushAnd t (frames ++ .group :: below) = (pushAnd t frames).inside below := by
  rw [pushAnd, closeFrames_inside, pushAnd]
  generalize closeFrames BinaryOp.and.level t frames = closed
  obtain ⟨left, rest⟩ := closed
  cases rest with
  | nil => rfl
  | cons f rest => cases f <;> rfl

theorem closeParen?_inside (h : closeParen? t frames = some r') (below : List Frame) :
    closeParen? t (frames ++ .group :: below) = some (r'.inside below) := by
  rw [closeParen?, closeFrames_inside]
  rw [closeParen?] at h
  generalize closeFrames 0 t frames = closed at h ⊢
  obtain ⟨inner, rest⟩ := closed
  cases rest with
  | nil => cases h
  | cons f rest => cases f <;> cases h <;> rfl

theorem nextMember?_inside (h : nextMember? t frames = some r') (below : List Frame) :
    nextMember? t (frames ++ .group :: below) = some (r'.inside below) := by
  rw [nextMember?, closeFrames_inside]
  rw [nextMember?] at h
  generalize closeFrames 0 t frames = closed at h ⊢
  obtain ⟨inner, rest⟩ := closed
  cases rest with
  | nil => cases h
  | cons f rest =>
    cases f <;> cases h
    rfl

theorem stepOperand?_inside (h : stepOperand? l frames = some r') (below : List Frame) :
    stepOperand? l (frames ++ .group :: below) = some (r'.inside below) := by
  cases l with
  | word word =>
    rw [stepOperand?] at h ⊢
    generalize Keyword.ofWord? word = keyword at h ⊢
    cases keyword with
    | none => cases h; rfl
    | some k => cases k <;> cases h <;> rfl
  | symbol s =>
    rw [stepOperand?] at h ⊢
    cases frames with
    | nil => cases s <;> cases h <;> rfl
    | cons f rest =>
      cases s
      case closeParen =>
        cases f
        case members negated value found =>
          cases found <;> cases h
          rfl
        all_goals cases h
      all_goals cases h <;> rfl
  | _ => cases h; rfl

theorem stepRelation?_inside {negated : Bool} {k : Keyword} (h : stepRelation? negated k t frames = some r')
    (below : List Frame) : stepRelation? negated k t (frames ++ .group :: below) = some (r'.inside below) := by
  cases k <;> cases h <;> rfl

theorem stepKeyword?_inside {k : Keyword} (h : stepKeyword? k t frames = some r') (below : List Frame) :
    stepKeyword? k t (frames ++ .group :: below) = some (r'.inside below) := by
  unfold stepKeyword? at h ⊢
  rw [closeFrames_inside equalityLevel, closeFrames_inside notLevel, pushAnd_inside, pushInfix_inside]
  dsimp only at h ⊢
  cases k
  case null => cases h
  case member => exact stepRelation?_inside h below
  case like => exact stepRelation?_inside h below
  case between => exact stepRelation?_inside h below
  all_goals
    cases h
    rfl

theorem stepOperator?_inside (h : stepOperator? l t frames = some r') (below : List Frame) :
    stepOperator? l t (frames ++ .group :: below) = some (r'.inside below) := by
  cases l with
  | word word =>
    rw [stepOperator?] at h ⊢
    obtain ⟨k, hk, hstep⟩ := Option.bind_eq_some_iff.mp h
    rw [hk, Option.bind_some]
    exact stepKeyword?_inside hstep below
  | symbol s =>
    have hpush : ∀ op, pushInfix op false t (frames ++ .group :: below)
        = (pushInfix op false t frames).inside below := fun op => pushInfix_inside op false t frames below
    cases s
    case closeParen => exact closeParen?_inside h below
    case comma => exact nextMember?_inside h below
    all_goals
      simp only [stepOperator?, Symbol.operator?, Option.map_some, Option.map_none] at h ⊢
      cases h
      try rw [hpush]
  | _ => cases h

/-- A step inside a parenthesis does not touch what is open in front of it. -/
theorem step?_inside (h : r.step? l = some r') (below : List Frame) :
    (r.inside below).step? l = some (r'.inside below) := by
  obtain ⟨expects, frames⟩ := r
  rw [step?] at h ⊢
  simp only [inside]
  cases expects with
  | operand => exact stepOperand?_inside h below
  | operator t => exact stepOperator?_inside h below
  | negation t =>
    dsimp only at h ⊢
    generalize keyword? l = keyword at h ⊢
    cases keyword with
    | none => cases h
    | some k =>
      cases k
      case null => cases h; rfl
      all_goals exact stepRelation?_inside h below
  | identity t =>
    dsimp only at h ⊢
    split at h
    · rename_i hnot
      cases h
      rw [if_pos hnot]
      rfl
    · rename_i hnot
      rw [if_neg hnot]
      exact stepOperand?_inside h below
  | list negated t =>
    dsimp only at h ⊢
    split at h
    · cases h
      rfl
    · cases h

/-! ## §2 Open parentheses -/

/-- The number of open parentheses. -/
def depth (r : TermReader) : Nat :=
  r.frames.countP Frame.isParen

/-- A token may take a reader from one number of open parentheses to another. No term has a semicolon. -/
def Nests : Lexeme → Nat → Nat → Prop
  | .symbol .openParen, n, n' => n' = n + 1
  | .symbol .closeParen, n, n' => n = n' + 1
  | .symbol .semicolon, _, _ => False
  | _, n, n' => n' = n

theorem countP_closeFrames (level : Nat) (t : WrittenTerm) (frames : List Frame) :
    (closeFrames level t frames).2.countP Frame.isParen = frames.countP Frame.isParen := by
  fun_induction closeFrames level t frames with
  | case1 => rfl
  | case2 t f rest closed hclosed ih =>
    -- Only open parts that are no parentheses are closed.
    have hparen : f.isParen = false := by
      cases f <;> first | rfl | cases hclosed
    rw [ih, List.countP_cons_of_neg (by simp [hparen])]
  | case3 t f rest hopen => rfl

theorem depth_pushInfix (op : BinaryOp) (negated : Bool) (t : WrittenTerm) (frames : List Frame) :
    (pushInfix op negated t frames).depth = frames.countP Frame.isParen := by
  rw [← countP_closeFrames op.level t frames]
  rfl

theorem depth_pushAnd (t : WrittenTerm) (frames : List Frame) :
    (pushAnd t frames).depth = frames.countP Frame.isParen := by
  rw [← countP_closeFrames BinaryOp.and.level t frames, pushAnd]
  generalize closeFrames BinaryOp.and.level t frames = closed
  obtain ⟨left, rest⟩ := closed
  cases rest with
  | nil => rfl
  | cons f rest => cases f <;> rfl

theorem depth_closeParen? (h : closeParen? t frames = some r') :
    frames.countP Frame.isParen = r'.depth + 1 := by
  rw [← countP_closeFrames 0 t frames]
  rw [closeParen?] at h
  generalize closeFrames 0 t frames = closed at h ⊢
  obtain ⟨inner, rest⟩ := closed
  cases rest with
  | nil => cases h
  | cons f rest => cases f <;> cases h <;> exact List.countP_cons_of_pos rfl

theorem depth_nextMember? (h : nextMember? t frames = some r') :
    r'.depth = frames.countP Frame.isParen := by
  rw [← countP_closeFrames 0 t frames]
  rw [nextMember?] at h
  generalize closeFrames 0 t frames = closed at h ⊢
  obtain ⟨inner, rest⟩ := closed
  cases rest with
  | nil => cases h
  | cons f rest =>
    cases f <;> cases h
    rfl

theorem stepOperand?_nests (h : stepOperand? l frames = some r') :
    Nests l (frames.countP Frame.isParen) r'.depth := by
  cases l with
  | word word =>
    rw [stepOperand?] at h
    generalize Keyword.ofWord? word = keyword at h
    cases keyword with
    | none => cases h; rfl
    | some k => cases k <;> cases h <;> rfl
  | symbol s =>
    rw [stepOperand?] at h
    cases frames with
    | nil => cases s <;> cases h <;> rfl
    | cons f rest =>
      cases s
      case closeParen =>
        cases f
        case members negated value found =>
          cases found <;> cases h
          exact List.countP_cons_of_pos rfl
        all_goals cases h
      case openParen =>
        cases h
        exact List.countP_cons_of_pos rfl
      all_goals cases h <;> rfl
  | _ => cases h; rfl

theorem stepRelation?_depth {negated : Bool} {k : Keyword} (h : stepRelation? negated k t frames = some r') :
    r'.depth = frames.countP Frame.isParen := by
  cases k <;> cases h <;> rfl

theorem stepKeyword?_depth {k : Keyword} (h : stepKeyword? k t frames = some r') :
    r'.depth = frames.countP Frame.isParen := by
  have hequality := countP_closeFrames equalityLevel t frames
  unfold stepKeyword? at h
  dsimp only at h
  cases k
  case null => cases h
  case and => cases h; exact depth_pushAnd t frames
  case or => cases h; exact depth_pushInfix .or false t frames
  case not => cases h; exact countP_closeFrames notLevel t frames
  case member => exact (stepRelation?_depth h).trans hequality
  case like => exact (stepRelation?_depth h).trans hequality
  case between => exact (stepRelation?_depth h).trans hequality
  all_goals cases h; exact hequality

theorem stepOperator?_nests (h : stepOperator? l t frames = some r') :
    Nests l (frames.countP Frame.isParen) r'.depth := by
  cases l with
  | word word =>
    obtain ⟨k, _, hstep⟩ := Option.bind_eq_some_iff.mp h
    exact stepKeyword?_depth hstep
  | symbol s =>
    cases s
    case closeParen => exact depth_closeParen? h
    case comma => exact depth_nextMember? h
    case openParen => cases h
    case semicolon => cases h
    all_goals cases h; exact depth_pushInfix _ false t frames
  | _ => cases h

theorem step?_nests (h : r.step? l = some r') : Nests l r.depth r'.depth := by
  obtain ⟨expects, frames⟩ := r
  rw [step?] at h
  cases expects with
  | operand => exact stepOperand?_nests h
  | operator t => exact stepOperator?_nests h
  | negation t =>
    -- Only a keyword comes here, and so no parenthesis.
    cases l with
    | word word =>
      dsimp only [keyword?] at h
      generalize Keyword.ofWord? word = keyword at h
      cases keyword with
      | none => cases h
      | some k =>
        cases k
        case null => cases h; rfl
        all_goals exact stepRelation?_depth h
    | _ => cases h
  | identity t =>
    dsimp only at h
    split at h
    · rename_i hnot
      cases h
      cases l with
      | word word => rfl
      | _ => cases hnot
    · have hnests : Nests l ((Frame.infixOp .is false t :: frames).countP Frame.isParen) r'.depth :=
        stepOperand?_nests h
      exact hnests
  | list negated t =>
    dsimp only at h
    split at h
    · cases h
      exact List.countP_cons_of_pos rfl
    · cases h

/-! ## §3 Runs -/

/-- The reader behind further tokens. -/
def run (r : TermReader) (ls : List Lexeme) : Option TermReader :=
  ls.foldlM step? r

theorem run_cons (h : r.step? l = some r') (ls : List Lexeme) : r.run (l :: ls) = r'.run ls := by
  rw [run, List.foldlM_cons, h]
  rfl

theorem run_append (r : TermReader) (ls ls' : List Lexeme) :
    r.run (ls ++ ls') = (r.run ls).bind fun r => r.run ls' :=
  List.foldlM_append

theorem run_inside {ls : List Lexeme} (h : r.run ls = some r') (below : List Frame) :
    (r.inside below).run ls = some (r'.inside below) := by
  induction ls generalizing r with
  | nil => cases h; rfl
  | cons l ls ih =>
    obtain ⟨r₁, hstep, hrest⟩ := Option.bind_eq_some_iff.mp h
    exact Option.bind_eq_some_iff.mpr ⟨r₁.inside below, step?_inside hstep below, ih hrest⟩

theorem finish?_eq_some (h : r.finish? = some t) :
    ∃ u opened, r = ⟨.operator u, opened⟩ ∧ closeFrames 0 u opened = (t, []) := by
  obtain ⟨expects, opened⟩ := r
  cases expects with
  | operator u =>
    rw [finish?] at h
    dsimp only at h
    split at h
    · rename_i hclosed
      cases h
      exact ⟨u, opened, rfl, hclosed⟩
    · cases h
  | _ => cases h

/-- A term in parentheses is read as it is read alone, whatever is open in front of it. -/
theorem run_group {ls : List Lexeme} (h : Term.ofLexemes? ls = some t) (frames : List Frame) :
    run ⟨.operand, frames⟩ (.symbol .openParen :: (ls ++ [.symbol .closeParen]))
      = some ⟨.operator t, frames⟩ := by
  obtain ⟨r, hrun, hfinish⟩ := Option.bind_eq_some_iff.mp h
  obtain ⟨u, opened, rfl, hclosed⟩ := finish?_eq_some hfinish
  have hinside : run ⟨.operand, .group :: frames⟩ ls = some ⟨.operator u, opened ++ .group :: frames⟩ :=
    run_inside hrun frames
  have hclose : closeParen? u (opened ++ .group :: frames) = some ⟨.operator t, frames⟩ := by
    rw [closeParen?, closeFrames_inside, hclosed]
    rfl
  show run ⟨.operand, .group :: frames⟩ (ls ++ [.symbol .closeParen]) = _
  rw [run_append, hinside, Option.bind_some]
  exact Option.bind_eq_some_iff.mpr ⟨_, hclose, rfl⟩

theorem depthAfter_of_nests {token : Token} {n n' : Nat} (h : Nests token.lexeme n n') :
    depthAfter (n + 1) token = n' + 1 := by
  unfold Nests at h
  unfold depthAfter Token.isSymbol
  split at h
  · rename_i heq
    simp [heq, h]
  · rename_i heq
    simp [heq, h]
  · cases h
  · rename_i hopen hclose hsemicolon
    cases hl : token.lexeme with
    | symbol s =>
      have hs : s ≠ .openParen ∧ s ≠ .closeParen := by
        constructor
        · rintro rfl
          exact hopen hl
        · rintro rfl
          exact hclose hl
      simp [hs.1, hs.2, h]
    | _ => simp [h]

/-- Inside of parentheses no clause starts. -/
theorem cutWhere?_run {ts : List Token} (h : r.run (ts.map Token.lexeme) = some r') (p : Token → Bool)
    (later : List Token) : cutWhere? p (r.depth + 1) (ts ++ later)
      = (cutWhere? p (r'.depth + 1) later).map fun cut => (ts ++ cut.1, cut.2) := by
  induction ts generalizing r with
  | nil =>
    cases h
    simp
  | cons token ts ih =>
    obtain ⟨r₁, hstep, hrest⟩ := Option.bind_eq_some_iff.mp h
    rw [List.cons_append, cutWhere?, depthAfter_of_nests (step?_nests hstep), ih hrest, Option.map_map]
    rfl

/-- What has been read has no semicolon. -/
theorem not_semicolon_of_run {ls : List Lexeme} (h : r.run ls = some r') :
    Lexeme.symbol .semicolon ∉ ls := by
  induction ls generalizing r with
  | nil => exact List.not_mem_nil
  | cons l ls ih =>
    obtain ⟨r₁, hstep, hrest⟩ := Option.bind_eq_some_iff.mp h
    intro hmem
    rcases List.mem_cons.mp hmem with rfl | hlater
    · exact step?_nests hstep
    · exact ih hrest hlater

end TermReader

/-- No term ends in a star. -/
theorem ofLexemes?_star (front : List Lexeme) : Term.ofLexemes? (front ++ [.symbol .star]) = none := by
  refine Option.eq_none_iff_forall_not_mem.mpr fun t ht => ?_
  obtain ⟨r, hrun, hfinish⟩ := Option.bind_eq_some_iff.mp ht
  obtain ⟨u, opened, rfl, _⟩ := TermReader.finish?_eq_some hfinish
  obtain ⟨r, _, hstep⟩ := Option.bind_eq_some_iff.mp ((TermReader.run_append _ front _).symm.trans hrun)
  obtain ⟨expects, frames⟩ := r
  -- Behind a star a term is expected, and a star stands nowhere else.
  cases expects <;> cases hstep

/-! ## §4 Conditions -/

open TermReader (run)

/-- Tokens are read as a term behind what is open, as far as a following `AND` can tell, and no order starts
    among them. -/
structure Clause (frames : List Frame) (ls : List Lexeme) (t : WrittenTerm) : Prop where
  reads : ∃ u opened, run ⟨.operand, frames⟩ ls = some ⟨.operator u, opened ++ frames⟩
    ∧ ∀ level, level ≤ BinaryOp.and.level →
      closeFrames level u (opened ++ frames) = closeFrames level t frames
  noOrder : ∀ ts later, ts.map Token.lexeme = ls → cutWhere? (Token.isWord "ORDER") 0 (ts ++ later)
    = (cutWhere? (Token.isWord "ORDER") 0 later).map fun cut => (ts ++ cut.1, cut.2)

variable {frames : List Frame} {ls ls' : List Lexeme} {s t : WrittenTerm}

theorem Clause.group (h : Term.ofLexemes? ls = some t) (frames : List Frame) :
    Clause frames (.symbol .openParen :: (ls ++ [.symbol .closeParen])) t := by
  refine ⟨⟨t, [], TermReader.run_group h frames, fun _ _ => rfl⟩, fun ts later hts => ?_⟩
  obtain ⟨left, ts, rfl, hleft, htail⟩ := List.map_eq_cons_iff.mp hts
  obtain ⟨inner, last, rfl, hinner, hlast⟩ := List.map_eq_append_iff.mp htail
  obtain ⟨right, rfl, hright⟩ := List.map_eq_singleton_iff.mp hlast
  obtain ⟨r, hrun, hfinish⟩ := Option.bind_eq_some_iff.mp h
  obtain ⟨u, opened, rfl, hclosed⟩ := TermReader.finish?_eq_some hfinish
  -- Behind the term all parentheses in it are closed, so the cut goes on outside of them.
  have hdepth : opened.countP Frame.isParen = 0 := by
    rw [← TermReader.countP_closeFrames 0 u opened, hclosed]
    rfl
  have hread : TermReader.start.run (inner.map Token.lexeme) = some ⟨.operator u, opened⟩ := by
    rw [hinner]
    exact hrun
  have hinside := TermReader.cutWhere?_run hread (Token.isWord "ORDER") (right :: later)
  simp only [TermReader.depth, hdepth, TermReader.start, List.countP_nil, Nat.zero_add] at hinside
  simp [cutWhere?, hinside, depthAfter, Token.isSymbol, Token.isWord, hleft, hright, Function.comp_def]

/-- The condition that a row is no outlier, as it is written. -/
def keptCondition : WrittenTerm :=
  .binary (.compare .eq) (.name ⟨.bare, "OUT"⟩) (.literal (.integer 0))

theorem Clause.kept (hframes : ∀ u, closeFrames equalityLevel u frames = (u, frames)) :
    Clause frames [.word "OUT", .symbol .equal, .number (.integer 0)] keptCondition := by
  refine ⟨⟨.literal (.integer 0), [.infixOp (.compare .eq) false (.name ⟨.bare, "OUT"⟩)], ?_, ?_⟩, ?_⟩
  · have hout : TermReader.stepOperand? (.word "OUT") frames
        = some ⟨.operator (.name ⟨.bare, "OUT"⟩), frames⟩ := by
      have hkeyword : Keyword.ofWord? "OUT" = none := by cbv
      rw [TermReader.stepOperand?, hkeyword]
    have hequal : TermReader.stepOperator? (.symbol .equal) (.name ⟨.bare, "OUT"⟩) frames
        = some ⟨.operand, .infixOp (.compare .eq) false (.name ⟨.bare, "OUT"⟩) :: frames⟩ := by
      have hclosed := hframes (.name ⟨.bare, "OUT"⟩)
      simp [TermReader.stepOperator?, Symbol.operator?, TermReader.pushInfix, BinaryOp.level, hclosed]
    rw [run, List.foldlM_cons]
    refine Option.bind_eq_some_iff.mpr ⟨_, hout, ?_⟩
    rw [List.foldlM_cons]
    exact Option.bind_eq_some_iff.mpr ⟨_, hequal, rfl⟩
  · intro level hlevel
    have hle : level ≤ (BinaryOp.compare .eq).level := Nat.le_trans hlevel (by decide)
    rw [List.singleton_append, closeFrames, Frame.close?, if_pos hle]
    rfl
  · intro ts later hts
    obtain ⟨out, ts, rfl, hout, hts⟩ := List.map_eq_cons_iff.mp hts
    obtain ⟨equal, ts, rfl, hequal, hts⟩ := List.map_eq_cons_iff.mp hts
    obtain ⟨zero, rfl, hzero⟩ := List.map_eq_singleton_iff.mp hts
    have hword : (Text.asciiUpper "OUT" == "ORDER") = false := by cbv
    simp [cutWhere?, depthAfter, Token.isSymbol, Token.isWord, hout, hequal, hzero, hword,
      Function.comp_def]

/-- `AND` between two terms, at the start of a condition. -/
theorem Clause.and (h : Clause [] ls s) (h' : Clause [.infixOp .and false s] ls' t) :
    Clause [] (ls ++ .word "AND" :: ls') (.binary .and s t) := by
  obtain ⟨u, opened, hrun, hclose⟩ := h.reads
  obtain ⟨u', opened', hrun', hclose'⟩ := h'.reads
  rw [List.append_nil] at hrun
  have hand : TermReader.step? ⟨.operator u, opened⟩ (.word "AND")
      = some ⟨.operand, [.infixOp .and false s]⟩ := by
    have hkeyword : Keyword.ofWord? "AND" = some .and := by cbv
    have hclosed : closeFrames BinaryOp.and.level u opened = (s, []) := by
      simpa [closeFrames] using hclose _ (Nat.le_refl _)
    show TermReader.stepOperator? (.word "AND") u opened = _
    rw [TermReader.stepOperator?, hkeyword, Option.bind_some, TermReader.stepKeyword?]
    simp [TermReader.pushAnd, hclosed]
  refine ⟨⟨u', opened' ++ [.infixOp .and false s], ?_, fun level hlevel => ?_⟩, fun ts later hts => ?_⟩
  · rw [TermReader.run_append, hrun, Option.bind_some, List.append_nil]
    exact Option.bind_eq_some_iff.mpr ⟨_, hand, hrun'⟩
  · have hjoined : Term.joined .and false s t = .binary .and s t := by
      unfold Term.joined
      cases Term.truthWord? t with
      | none => rfl
      | some b => rfl
    have hclosed : Frame.close? level t (.infixOp .and false s) = some (.binary .and s t) := by
      rw [Frame.close?.eq_def]
      dsimp only
      rw [if_pos hlevel, hjoined]
    rw [List.append_nil, hclose' level hlevel]
    simp [closeFrames, hclosed]
  · obtain ⟨first, rest, rfl, hfirst, hrest⟩ := List.map_eq_append_iff.mp hts
    obtain ⟨mark, second, rfl, hmark, hsecond⟩ := List.map_eq_cons_iff.mp hrest
    have hword : (Text.asciiUpper "AND" == "ORDER") = false := by cbv
    have hcut : cutWhere? (Token.isWord "ORDER") 0 (mark :: (second ++ later))
        = (cutWhere? (Token.isWord "ORDER") 0 (second ++ later)).map fun cut => (mark :: cut.1, cut.2) := by
      simp [cutWhere?, depthAfter, Token.isSymbol, Token.isWord, hmark, hword]
    rw [List.append_assoc, List.cons_append, h.noOrder first _ hfirst, hcut, h'.noOrder second _ hsecond]
    simp [Function.comp_def]

/-! ## §5 Texts of conditions -/

/-- A text is read as a term behind what is open: it has no null character, and in front of a space its
    tokens are a clause. -/
structure ReadsAs (frames : List Frame) (text : List Char) (t : WrittenTerm) : Prop where
  plain : '\x00' ∉ text
  clause : ∃ ls, Clause frames ls t
    ∧ ∀ more, lexemes? (text ++ ' ' :: more) = (lexemes? more).map (ls ++ ·)

variable {a b text : List Char}

/-- A text without comments whose tokens are a term is an expression. -/
theorem IsExpression.of_scan {cs : List Char} {ts : List Token} (hplain : '\x00' ∉ cs)
    (hscan : scanChars? (takeBlank cs).2 = some ts) (hblank : (takeBlank cs).1.all isSeparator = true)
    (hblanks : ∀ t ∈ ts, t.blank.all isSeparator = true) (hterm : termOf? ts = some t) : IsExpression cs t := by
  have hstar : ∀ front, ts.map Token.lexeme ≠ front ++ [.symbol .star] := by
    intro front hfront
    rw [termOf?, hfront, ofLexemes?_star] at hterm
    cases hterm
  exact ⟨hplain, ts.map Token.lexeme, by rw [lexemes?, hscan, Option.map_some],
    lexemes?_closeParen hscan hblank hblanks hstar, hterm⟩

theorem IsExpression.group (h : IsExpression text t) (frames : List Frame) :
    ReadsAs frames ('(' :: (text ++ [')'])) t := by
  obtain ⟨ls, hlexes, hclosed, hterm⟩ := h.reads
  refine ⟨by simpa using h.plain, _, .group hterm frames, fun more => ?_⟩
  have hscan := (lexemes?_eq_some_iff.1 hlexes).closed hclosed (' ' :: more)
  rw [List.cons_append, List.append_assoc, List.singleton_append, lexemes?_openParen, hscan, lexemes?_space,
    Option.map_map]
  simp [Function.comp_def]

/-- The text of the condition that a row is no outlier. -/
def keptText : List Char := "OUT = 0".toList

theorem readsAs_kept (hframes : ∀ u, closeFrames equalityLevel u frames = (u, frames)) :
    ReadsAs frames keptText keptCondition := by
  refine ⟨by decide, _, .kept hframes, fun more => ?_⟩
  have htext : keptText ++ ' ' :: more = 'O' :: (['U', 'T'] ++ ' ' :: '=' :: ' ' :: '0' :: ' ' :: more) := rfl
  have hequal : lexemes? ('=' :: ' ' :: '0' :: ' ' :: more)
      = (lexemes? ('0' :: ' ' :: more)).map (.symbol .equal :: ·) := by
    rw [lexemes?_token (takeBlank_start rfl (fun h => by cases h) fun h => by cases h)
      ((takeLexeme?_symbol rfl _).trans rfl), lexemes?_space]
  have hzero : lexemes? ('0' :: ' ' :: more) = (lexemes? more).map (.number (.integer 0) :: ·) := by
    have hnumber : takeNumber? ('0' :: ' ' :: more) = some (.integer 0, ' ' :: more) := rfl
    rw [lexemes?_number rfl hnumber rfl (Nat.le_refl _) ⟨by simp, by simp⟩, lexemes?_space]
  rw [htext, lexemes?_word (by decide) (by decide) (List.all_eq_true.mp rfl) rfl, lexemes?_space, hequal, hzero,
    Option.map_map, Option.map_map]
  rfl

theorem lexemes?_and (more : List Char) :
    lexemes? ('A' :: 'N' :: 'D' :: ' ' :: more) = (lexemes? more).map (.word "AND" :: ·) := by
  have htext : 'A' :: 'N' :: 'D' :: ' ' :: more = 'A' :: (['N', 'D'] ++ ' ' :: more) := rfl
  rw [htext, lexemes?_word (by decide) (by decide) (List.all_eq_true.mp rfl) rfl, lexemes?_space]

theorem ReadsAs.and (h : ReadsAs [] a s) (h' : ReadsAs [.infixOp .and false s] b t) :
    ReadsAs [] (a ++ " AND ".toList ++ b) (.binary .and s t) := by
  obtain ⟨ls, hclause, hscan⟩ := h.clause
  obtain ⟨ls', hclause', hscan'⟩ := h'.clause
  refine ⟨?_, _, hclause.and hclause', fun more => ?_⟩
  · simp [h.plain, h'.plain]
  · have htext : a ++ " AND ".toList ++ b ++ ' ' :: more
        = a ++ ' ' :: 'A' :: 'N' :: 'D' :: ' ' :: (b ++ ' ' :: more) := by simp
    rw [htext, hscan, lexemes?_and, hscan', Option.map_map, Option.map_map]
    simp [Function.comp_def]

/-- Texts that are read as terms, with `AND` between them, are read as the conjunction of the terms. -/
theorem ReadsAs.intercalate_and (h : ReadsAs [] a s) {texts : List (List Char)} {terms : List WrittenTerm}
    (hrest : List.Forall₂ (fun b t => ∀ left, ReadsAs [.infixOp .and false left] b t) texts terms) :
    ReadsAs [] (" AND ".toList.intercalate (a :: texts)) (terms.foldl (.binary .and) s) := by
  -- Along the texts: the conjunction of those before takes in the next one.
  induction hrest generalizing a s with
  | nil => simpa using h
  | @cons b t texts terms hb _ ih =>
    have hmerged : " AND ".toList.intercalate (a :: b :: texts)
        = " AND ".toList.intercalate ((a ++ " AND ".toList ++ b) :: texts) := by
      cases texts <;> simp [List.intercalate_cons_cons]
    rw [hmerged, List.foldl_cons]
    exact ih (h.and (hb s))

/-- A word that names a column. -/
structure IsColumnWord (word : String) : Prop where
  chars : ∃ c cs, word.toList = c :: cs ∧ (c.isAlpha || c == '_') = true ∧ c ≠ 'x' ∧ c ≠ 'X'
    ∧ ∀ d ∈ cs, isWordChar d = true
  keyword : Keyword.ofWord? word = none
  noDirection : Text.asciiUpper word ≠ "DESC" ∧ Text.asciiUpper word ≠ "ASC"

theorem IsColumnWord.lexemes? {word : String} (h : IsColumnWord word) {rest : List Char}
    (hrest : (rest.head?.map isWordChar).getD false = false) :
    Sql.lexemes? (word.toList ++ rest) = (Sql.lexemes? rest).map (.word word :: ·) := by
  obtain ⟨c, cs, hword, hstart, hx, hX, hcs⟩ := h.chars
  rw [hword, List.cons_append, lexemes?_word hstart ⟨hx, hX⟩ hcs hrest, ← hword, String.ofList_toList]

theorem orderOf?_word {ts : List Token} {column : String} (hcolumn : IsColumnWord column)
    (hts : ts.map Token.lexeme = [.word "BY", .word column]) :
    orderOf? (some ts) = some [⟨.name ⟨.bare, column⟩, false⟩] := by
  obtain ⟨by_, ts, rfl, hby, hts⟩ := List.map_eq_cons_iff.mp hts
  obtain ⟨key, rfl, hkey⟩ := List.map_eq_singleton_iff.mp hts
  have hword : by_.isWord "BY" = true := by
    have hupper : (Text.asciiUpper "BY" == "BY") = true := by cbv
    rw [Token.isWord, hby]
    exact hupper
  have hdesc : key.isWord "DESC" = false := by simp [Token.isWord, hkey, hcolumn.noDirection.1]
  have hasc : key.isWord "ASC" = false := by simp [Token.isWord, hkey, hcolumn.noDirection.2]
  have hcomma : key.isSymbol .comma = false := by simp [Token.isSymbol, hkey]
  have hterm : termOf? [key] = some (.name ⟨.bare, column⟩) := by
    rw [termOf?, List.map_singleton, hkey]
    have hstep : TermReader.step? .start (.word column) = some ⟨.operator (.name ⟨.bare, column⟩), []⟩ := by
      show TermReader.stepOperand? (.word column) [] = _
      rw [TermReader.stepOperand?, hcolumn.keyword]
    exact Option.bind_eq_some_iff.mpr ⟨_, Option.bind_eq_some_iff.mpr ⟨_, hstep, rfl⟩, rfl⟩
  simp [orderOf?, hword, splitItems, hcomma, orderKey?, hdesc, hasc, hterm]

theorem Clause.term (h : Clause [] ls t) : Term.ofLexemes? ls = some t := by
  obtain ⟨u, opened, hrun, hclose⟩ := h.reads
  rw [List.append_nil] at hrun hclose
  refine Option.bind_eq_some_iff.mpr ⟨_, hrun, ?_⟩
  have hclosed : closeFrames 0 u opened = (t, []) := (hclose 0 (Nat.zero_le _)).trans rfl
  simp [TermReader.finish?, hclosed]

/-- The tokens of a text without null characters. -/
theorem exists_scan?_of_lexemes? {text : String} (hplain : '\x00' ∉ text.toList)
    (h : lexemes? text.toList = some ls) : ∃ ts, Token.scan? text = some ts ∧ ts.map Token.lexeme = ls := by
  have hall : ∀ c ∈ text.toList, (c != '\x00') = true := by
    intro c hc
    refine bne_iff_ne.mpr ?_
    rintro rfl
    exact hplain hc
  rw [Token.scan?, List.takeWhile_eq_self_iff.mpr hall]
  exact Option.map_eq_some_iff.mp h

/-- Tokens without semicolons are the tokens of a statement. -/
theorem withoutSemicolons?_eq_some {ts : List Token} (h : Lexeme.symbol .semicolon ∉ ts.map Token.lexeme) :
    withoutSemicolons? ts = some ts := by
  have hall : ∀ token ∈ ts, (!token.isSymbol .semicolon) = true := by
    intro token htoken
    unfold Token.isSymbol
    split
    · rename_i s hs
      have hne : s ≠ .semicolon := by
        rintro rfl
        exact h (List.mem_map.mpr ⟨token, htoken, hs⟩)
      simpa using hne
    · rfl
  simp [withoutSemicolons?, List.takeWhile_eq_self_iff.mpr hall, List.dropWhile_eq_nil_iff.mpr hall]

/-- Tokens that are a clause, with an order behind them, are a selection. -/
theorem Clause.ofTokens? (h : Clause [] ls t) {column : String} (hcolumn : IsColumnWord column)
    {ts : List Token} (hts : ts.map Token.lexeme = ls ++ [.word "ORDER", .word "BY", .word column]) :
    (withoutSemicolons? ts).bind Selection.ofTokens? = some ⟨some t, [⟨.name ⟨.bare, column⟩, false⟩]⟩ := by
  have hbody : withoutSemicolons? ts = some ts := by
    obtain ⟨u, opened, hrun, _⟩ := h.reads
    apply withoutSemicolons?_eq_some
    rw [hts]
    simpa using TermReader.not_semicolon_of_run hrun
  obtain ⟨front, rest, rfl, hfront, hrest⟩ := List.map_eq_append_iff.mp hts
  obtain ⟨mark, key, rfl, hmark, hkey⟩ := List.map_eq_cons_iff.mp hrest
  have hword : mark.isWord "ORDER" = true := by
    have hupper : (Text.asciiUpper "ORDER" == "ORDER") = true := by cbv
    rw [Token.isWord, hmark]
    exact hupper
  have hcut : cutClause "ORDER" (front ++ mark :: key) = (front, some key) := by
    rw [cutClause, h.noOrder front _ hfront, cutWhere?, hword]
    simp
  have hterm : termOf? front = some t := by rw [termOf?, hfront, h.term]
  rw [hbody, Option.bind_some, Selection.ofTokens?, hcut]
  simp [hterm, orderOf?_word hcolumn hkey]

/-- A text that is read as a term, with the order of a column behind it, is a selection by the term. -/
theorem ReadsAs.parse? (h : ReadsAs [] text t) {column : String} (hcolumn : IsColumnWord column) :
    Selection.parse? (String.ofList (text ++ " ORDER BY ".toList ++ column.toList))
      = some ⟨some t, [⟨.name ⟨.bare, column⟩, false⟩]⟩ := by
  obtain ⟨ls, hclause, hscan⟩ := h.clause
  have htext : text ++ " ORDER BY ".toList ++ column.toList
      = text ++ ' ' :: 'O' :: (['R', 'D', 'E', 'R'] ++ ' ' :: 'B' :: (['Y'] ++ ' ' :: column.toList)) := by
    simp
  have hlexemes : lexemes? (text ++ " ORDER BY ".toList ++ column.toList)
      = some (ls ++ [.word "ORDER", .word "BY", .word column]) := by
    have hnone : lexemes? [] = some [] := lexemes?_done (by rw [takeBlank])
    have hlast : lexemes? (column.toList ++ []) = (lexemes? []).map (.word column :: ·) := hcolumn.lexemes? rfl
    rw [List.append_nil, hnone] at hlast
    rw [htext, hscan, lexemes?_word (by decide) (by decide) (List.all_eq_true.mp rfl) rfl, lexemes?_space,
      lexemes?_word (by decide) (by decide) (List.all_eq_true.mp rfl) rfl, lexemes?_space, hlast]
    rfl
  have hplain : '\x00' ∉ text ++ " ORDER BY ".toList ++ column.toList := by
    obtain ⟨c, cs, hword, hstart, _, _, hcs⟩ := hcolumn.chars
    have hnone : '\x00' ∉ column.toList := by
      rw [hword]
      intro hmem
      rcases List.mem_cons.mp hmem with rfl | hlater
      · cases hstart
      · cases hcs _ hlater
    simp [h.plain, hnone]
  obtain ⟨ts, htokens, hmap⟩ : ∃ ts,
      Token.scan? (String.ofList (text ++ " ORDER BY ".toList ++ column.toList)) = some ts
        ∧ ts.map Token.lexeme = ls ++ [.word "ORDER", .word "BY", .word column] := by
    apply exists_scan?_of_lexemes?
    · rwa [String.toList_ofList]
    · rwa [String.toList_ofList]
  rw [Selection.parse?, htokens, Option.bind_some]
  exact hclause.ofTokens? hcolumn hmap

/-! ## §6 Conditions that stand alone -/

/-- No token of a text is the word `ORDER`, which stands for no name in a query. -/
def WithoutOrder (cs : List Char) : Prop :=
  ∀ ls, lexemes? cs = some ls → ∀ word, Lexeme.word word ∈ ls → Text.asciiUpper word ≠ "ORDER"

theorem cutWhere?_eq_none {p : Token → Bool} {ts : List Token} (h : ∀ token ∈ ts, p token = false) (depth : Nat) :
    cutWhere? p depth ts = none := by
  induction ts generalizing depth with
  | nil => rfl
  | cons token ts ih =>
    have hlater := ih (fun token htoken => h token (List.mem_cons_of_mem _ htoken)) (depthAfter depth token)
    rw [cutWhere?, h token (List.mem_cons_self ..), hlater]
    simp

/-- An expression that stands alone behind `WHERE` is a selection by its term. -/
theorem IsExpression.parse? {text : String} (h : IsExpression text.toList t) (horder : WithoutOrder text.toList) :
    Selection.parse? text = some ⟨some t, []⟩ := by
  obtain ⟨ls, hlexes, _, hterm⟩ := h.reads
  obtain ⟨ts, hscan, hts⟩ := exists_scan?_of_lexemes? h.plain hlexes
  obtain ⟨r, hrun, _⟩ := Option.bind_eq_some_iff.mp hterm
  have hbody : withoutSemicolons? ts = some ts := by
    apply withoutSemicolons?_eq_some
    rw [hts]
    exact TermReader.not_semicolon_of_run hrun
  have hnone : ∀ token ∈ ts, token.isWord "ORDER" = false := by
    intro token htoken
    unfold Token.isWord
    split
    · rename_i word hword
      have hmem : Lexeme.word word ∈ ls := hts ▸ List.mem_map.mpr ⟨token, htoken, hword⟩
      simpa using horder ls hlexes word hmem
    · rfl
  rw [Selection.parse?, hscan, Option.bind_some, hbody, Option.bind_some, Selection.ofTokens?, cutClause,
    cutWhere?_eq_none hnone]
  simp only [termOf?, hts, hterm, orderOf?]

end BenchPlot.Sql
