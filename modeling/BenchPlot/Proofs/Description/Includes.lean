import BenchPlot.Description.Source
import BenchPlot.Proofs.Description.LogicalLines
import BenchPlot.Proofs.Store.Accepted

/-!
# Included files

A description is loaded file by file: while a file is open its directives are followed one by one, and the files they
name are opened in turn, no more than `maxIncludeDepth` at once and none while it is open itself. So loading ends for
all files, also where they include each other. What is loaded are the lines of the include tree, depth first; and it is
refused iff the directives lead from the first file to an obstacle.

Main statements: `loads_run`, `Loads.hasTree`, `IncludeTree.loads_file`, `Loads.exists_obstacle` and
`loadFile_expands`.
-/

namespace BenchPlot

/-! ## §1 Loading step by step -/

/-- What is loaded while the files with the identities `chain` are open, the innermost first: a file, or lines of the
    innermost file. -/
inductive LoadTask where
  | file (chain : List String) (path : String) (site : Location)
  | lines (chain : List String) (lines : List LogicalLine)

/-- How a description is loaded. A file is opened where fewer than `maxIncludeDepth` files are open, if it can be read
    and is not open; a directive opens its target while the file it stands in is open. The first failure is that of the
    whole. Nothing here counts down, so a task could go on for ever. -/
inductive Loads (files : SourceFiles) (scope : Scope) : LoadTask → Except DescriptionError (List LogicalLine) → Prop
  | tooDeep {chain path site} (hdeep : maxIncludeDepth ≤ chain.length) :
    Loads files scope (.file chain path site) (.error ⟨site, .includesTooDeep path⟩)
  | unreadable {chain path site fault} (hroom : chain.length < maxIncludeDepth)
    (hread : files.read path = .error fault) :
    Loads files scope (.file chain path site) (.error ⟨site, .unreadable path fault⟩)
  | cycle {chain path site text} (hroom : chain.length < maxIncludeDepth) (hread : files.read path = .ok text)
    (hopen : files.identity path ∈ chain) :
    Loads files scope (.file chain path site) (.error ⟨site, .includeCycle path⟩)
  | opened {chain path site text r} (hroom : chain.length < maxIncludeDepth) (hread : files.read path = .ok text)
    (hnew : files.identity path ∉ chain)
    (hlines : Loads files scope (.lines (files.identity path :: chain) (logicalLines path text)) r) :
    Loads files scope (.file chain path site) r
  | nil {chain} : Loads files scope (.lines chain []) (.ok [])
  | line {chain line rest r} (hline : isInclude line.text = false) (hrest : Loads files scope (.lines chain rest) r) :
    Loads files scope (.lines chain (line :: rest)) (r.map (line :: ·))
  | badDirective {chain line rest fault} (hline : isInclude line.text = true)
    (htarget : includeTarget scope line = .error fault) :
    Loads files scope (.lines chain (line :: rest)) (.error ⟨line.location, fault⟩)
  | refused {chain line rest target e} (hline : isInclude line.text = true)
    (htarget : includeTarget scope line = .ok target)
    (hfile : Loads files scope (.file chain target line.location) (.error e)) :
    Loads files scope (.lines chain (line :: rest)) (.error e)
  | included {chain line rest target part r} (hline : isInclude line.text = true)
    (htarget : includeTarget scope line = .ok target)
    (hfile : Loads files scope (.file chain target line.location) (.ok part))
    (hrest : Loads files scope (.lines chain rest) r) :
    Loads files scope (.lines chain (line :: rest)) (r.map (part ++ ·))

variable {files : SourceFiles} {scope : Scope}

/-- A task as it is run, with the number of files that may still be opened. -/
def LoadTask.run (files : SourceFiles) (scope : Scope) : LoadTask → Except DescriptionError (List LogicalLine)
  | .file chain path site => expandFile files scope (maxIncludeDepth - chain.length) chain path site
  | .lines chain rest => expandLines scope (expandFile files scope (maxIncludeDepth - chain.length) chain) rest

namespace LoadTask

variable {chain : List String} {path : String} {site : Location}

theorem run_file_of_deep (hdeep : maxIncludeDepth ≤ chain.length) :
    (file chain path site).run files scope = .error ⟨site, .includesTooDeep path⟩ := by
  rw [run, Nat.sub_eq_zero_of_le hdeep, expandFile]

theorem run_file_of_unreadable (hroom : chain.length < maxIncludeDepth) {fault : FileFault}
    (hread : files.read path = .error fault) :
    (file chain path site).run files scope = .error ⟨site, .unreadable path fault⟩ := by
  obtain ⟨levels, hlevels⟩ := Nat.exists_eq_add_one_of_ne_zero (Nat.sub_ne_zero_of_lt hroom)
  rw [run, hlevels, expandFile, hread]

/-- An open file is one of the `maxIncludeDepth`, so its own number is off by one. -/
theorem run_file_of_read (hroom : chain.length < maxIncludeDepth) {text : String} (hread : files.read path = .ok text) :
    (file chain path site).run files scope
      = if files.identity path ∈ chain then .error ⟨site, .includeCycle path⟩
        else (lines (files.identity path :: chain) (logicalLines path text)).run files scope := by
  obtain ⟨levels, hlevels⟩ := Nat.exists_eq_add_one_of_ne_zero (Nat.sub_ne_zero_of_lt hroom)
  have hinner : maxIncludeDepth - (files.identity path :: chain).length = levels := by
    rw [List.length_cons]
    omega
  rw [run, run, hinner, hlevels, expandFile, hread]
  simp only [List.contains_iff_mem]

theorem run_nil : (lines chain []).run files scope = .ok [] :=
  rfl

/-- The lines of the first line, and behind them those of the rest. -/
theorem run_cons (line : LogicalLine) (rest : List LogicalLine) :
    (lines chain (line :: rest)).run files scope
      = expandLine scope (fun path site => (file chain path site).run files scope) line >>= fun front =>
        ((lines chain rest).run files scope).map (front ++ ·) := by
  show expandLines scope (expandFile files scope (maxIncludeDepth - chain.length) chain) (line :: rest)
    = expandLine scope (expandFile files scope (maxIncludeDepth - chain.length) chain) line >>= fun front =>
      (expandLines scope (expandFile files scope (maxIncludeDepth - chain.length) chain) rest).map (front ++ ·)
  unfold expandLines
  rw [List.mapM_cons]
  cases expandLine scope (expandFile files scope (maxIncludeDepth - chain.length) chain) line with
  | error e => rfl
  | ok front =>
    cases rest.mapM (expandLine scope (expandFile files scope (maxIncludeDepth - chain.length) chain)) <;> rfl

end LoadTask

section ExpandLine

variable {included : String → Location → Except DescriptionError (List LogicalLine)} {line : LogicalLine}

theorem expandLine_of_line (hline : isInclude line.text = false) : expandLine scope included line = .ok [line] :=
  if_neg (ne_true_of_eq_false hline)

theorem expandLine_of_badDirective (hline : isInclude line.text = true) {fault : DescriptionFault}
    (htarget : includeTarget scope line = .error fault) :
    expandLine scope included line = .error ⟨line.location, fault⟩ := by
  rw [expandLine, if_pos hline, htarget]

theorem expandLine_of_directive (hline : isInclude line.text = true) {target : String}
    (htarget : includeTarget scope line = .ok target) :
    expandLine scope included line = included target line.location := by
  rw [expandLine, if_pos hline, htarget]

end ExpandLine

/-- Loading gives what running gives. -/
theorem Loads.run_eq {task : LoadTask} {r : Except DescriptionError (List LogicalLine)} (h : Loads files scope task r) :
    task.run files scope = r := by
  induction h with
  | tooDeep hdeep => exact LoadTask.run_file_of_deep hdeep
  | unreadable hroom hread => exact LoadTask.run_file_of_unreadable hroom hread
  | cycle hroom hread hopen => rw [LoadTask.run_file_of_read hroom hread, if_pos hopen]
  | opened hroom hread hnew _ ih => rw [LoadTask.run_file_of_read hroom hread, if_neg hnew, ih]
  | nil => exact LoadTask.run_nil
  | line hline _ ih =>
    rw [LoadTask.run_cons, expandLine_of_line hline, ih]
    rfl
  | badDirective hline htarget =>
    rw [LoadTask.run_cons, expandLine_of_badDirective hline htarget]
    rfl
  | refused hline htarget _ ih =>
    rw [LoadTask.run_cons, expandLine_of_directive hline htarget, ih]
    rfl
  | included hline htarget _ _ ihfile ihrest =>
    rw [LoadTask.run_cons, expandLine_of_directive hline htarget, ihfile, ihrest]
    rfl

/-- Lines can be loaded if every file can. -/
theorem loads_run_lines {chain : List String}
    (hfile : ∀ path site, Loads files scope (.file chain path site) ((LoadTask.file chain path site).run files scope))
    (lines : List LogicalLine) : Loads files scope (.lines chain lines) ((LoadTask.lines chain lines).run files scope) := by
  induction lines with
  | nil => exact .nil
  | cons line rest ih =>
    rw [LoadTask.run_cons]
    cases hline : isInclude line.text with
    | false =>
      rw [expandLine_of_line hline]
      exact .line hline ih
    | true =>
      cases htarget : includeTarget scope line with
      | error fault =>
        rw [expandLine_of_badDirective hline htarget]
        exact .badDirective hline htarget
      | ok target =>
        rw [expandLine_of_directive hline htarget]
        have htask := hfile target line.location
        cases hrun : (LoadTask.file chain target line.location).run files scope with
        | error e => exact .refused hline htarget (hrun ▸ htask)
        | ok part => exact .included hline htarget (hrun ▸ htask) ih

/-- Loading ends: every task has a result. The number of files that may still be opened is the measure. -/
theorem loads_run (task : LoadTask) : Loads files scope task (task.run files scope) := by
  have hfiles : ∀ levels chain, maxIncludeDepth - chain.length = levels → ∀ path site,
      Loads files scope (.file chain path site) ((LoadTask.file chain path site).run files scope) := by
    intro levels
    induction levels with
    | zero =>
      intro chain hlevels path site
      have hdeep : maxIncludeDepth ≤ chain.length := Nat.le_of_sub_eq_zero hlevels
      rw [LoadTask.run_file_of_deep hdeep]
      exact .tooDeep hdeep
    | succ levels ih =>
      intro chain hlevels path site
      have hroom : chain.length < maxIncludeDepth := by omega
      cases hread : files.read path with
      | error fault =>
        rw [LoadTask.run_file_of_unreadable hroom hread]
        exact .unreadable hroom hread
      | ok text =>
        rw [LoadTask.run_file_of_read hroom hread]
        split
        · rename_i hopen
          exact .cycle hroom hread hopen
        · rename_i hnew
          have hinner : maxIncludeDepth - (files.identity path :: chain).length = levels := by
            rw [List.length_cons]
            omega
          exact .opened hroom hread hnew (loads_run_lines (ih _ hinner) _)
  cases task with
  | file chain path site => exact hfiles _ chain rfl path site
  | lines chain lines => exact loads_run_lines (hfiles _ chain rfl) lines

/-! ## §2 Include trees -/

/-- A logical line, or a file with what its logical lines are: lines, and the files that are included. -/
inductive IncludeTree where
  | line (l : LogicalLine)
  | file (path : String) (children : List IncludeTree)

namespace IncludeTree

mutual

/-- The lines of a tree, depth first. -/
def lines : IncludeTree → List LogicalLine
  | .line l => [l]
  | .file _ children => linesOfAll children

/-- The lines of several trees. -/
def linesOfAll : List IncludeTree → List LogicalLine
  | [] => []
  | t :: rest => t.lines ++ linesOfAll rest

end

mutual

/-- The chains of files from the root of a tree to each of its files. -/
def chains : IncludeTree → List (List String)
  | .line _ => []
  | .file path children => [path] :: (chainsOfAll children).map (path :: ·)

/-- The chains of several trees. -/
def chainsOfAll : List IncludeTree → List (List String)
  | [] => []
  | t :: rest => t.chains ++ chainsOfAll rest

end

/-- What a logical line stands for: itself, or the file that it includes, with what each line of that file
    stands for. -/
inductive StandsFor (files : SourceFiles) (scope : Scope) : LogicalLine → IncludeTree → Prop
  | line {l} (hline : isInclude l.text = false) : StandsFor files scope l (.line l)
  | file {l path text children} (hline : isInclude l.text = true) (htarget : includeTarget scope l = .ok path)
    (hread : files.read path = .ok text)
    (hchildren : List.Forall₂ (StandsFor files scope) (logicalLines path text) children) :
    StandsFor files scope l (.file path children)

/-- The include tree of the file at a path. -/
inductive IsRootedAt (files : SourceFiles) (scope : Scope) (path : String) : IncludeTree → Prop
  | file {text children} (hread : files.read path = .ok text)
    (hchildren : List.Forall₂ (StandsFor files scope) (logicalLines path text) children) :
    IsRootedAt files scope path (.file path children)

theorem mem_chainsOfAll {trees : List IncludeTree} {c : List String} :
    c ∈ chainsOfAll trees ↔ ∃ t ∈ trees, c ∈ t.chains := by
  induction trees with
  | nil => simp [chainsOfAll]
  | cons t rest ih => simp [chainsOfAll, ih]

/-- Below the open files no chain of the tree meets a file twice or goes too deep. -/
def FitsBelow (files : SourceFiles) (chain : List String) (t : IncludeTree) : Prop :=
  ∀ c ∈ t.chains, (chain.reverse ++ c.map files.identity).Nodup ∧ chain.length + c.length ≤ maxIncludeDepth

/-- A tree fits below open files iff its root does, and what stands below the root does with the root open. -/
theorem fitsBelow_file {chain : List String} {path : String} {children : List IncludeTree} (hchain : chain.Nodup) :
    (file path children).FitsBelow files chain ↔ chain.length < maxIncludeDepth ∧ files.identity path ∉ chain
      ∧ ∀ t ∈ children, t.FitsBelow files (files.identity path :: chain) := by
  have hroot : (chain.reverse ++ [files.identity path]).Nodup ↔ files.identity path ∉ chain := by
    rw [← List.reverse_cons, List.nodup_reverse, List.nodup_cons]
    exact and_iff_left hchain
  have hbelow : ∀ c : List String, (chain.reverse ++ (path :: c).map files.identity).Nodup
        ∧ chain.length + (path :: c).length ≤ maxIncludeDepth
      ↔ ((files.identity path :: chain).reverse ++ c.map files.identity).Nodup
        ∧ (files.identity path :: chain).length + c.length ≤ maxIncludeDepth := by
    intro c
    rw [List.map_cons, List.reverse_cons, List.append_assoc, List.singleton_append, List.length_cons, List.length_cons,
      Nat.add_right_comm, Nat.add_assoc]
  constructor
  · intro h
    have hfirst := h [path] (by simp [chains])
    refine ⟨hfirst.2, hroot.mp hfirst.1, fun t ht c hc => ?_⟩
    refine (hbelow c).mp (h (path :: c) ?_)
    rw [chains]
    exact List.mem_cons_of_mem _ (List.mem_map_of_mem (mem_chainsOfAll.mpr ⟨t, ht, hc⟩))
  · rintro ⟨hroom, hnew, hchildren⟩ c hc
    rw [chains] at hc
    rcases List.mem_cons.mp hc with rfl | hc
    · exact ⟨hroot.mpr hnew, hroom⟩
    · obtain ⟨inner, hinner, rfl⟩ := List.mem_map.mp hc
      obtain ⟨t, ht, hinner⟩ := mem_chainsOfAll.mp hinner
      exact (hbelow inner).mpr (hchildren t ht inner hinner)

mutual

/-- What a fitting include tree stands for is loaded. -/
theorem loads_file {chain : List String} (hchain : chain.Nodup) (t : IncludeTree) {path : String} (site : Location)
    (h : t.IsRootedAt files scope path) (hfits : t.FitsBelow files chain) :
    Loads files scope (.file chain path site) (.ok t.lines) := by
  cases h with
  | @file text children hread hchildren =>
    obtain ⟨hroom, hnew, hbelow⟩ := (fitsBelow_file hchain).mp hfits
    rw [lines]
    exact .opened hroom hread hnew (loads_lines (List.nodup_cons.mpr ⟨hnew, hchain⟩) children hchildren hbelow)

theorem loads_lines {chain : List String} (hchain : chain.Nodup) (trees : List IncludeTree) {rest : List LogicalLine}
    (h : List.Forall₂ (StandsFor files scope) rest trees) (hfits : ∀ t ∈ trees, t.FitsBelow files chain) :
    Loads files scope (.lines chain rest) (.ok (linesOfAll trees)) := by
  cases h with
  | nil => exact .nil
  | @cons l t rest trees hfirst hrest =>
    have hlater := loads_lines hchain trees hrest fun t ht => hfits t (List.mem_cons_of_mem _ ht)
    have hfit := hfits t (List.mem_cons_self ..)
    cases hfirst with
    | line hline => exact .line hline hlater
    | file hline htarget hread hchildren =>
      exact .included hline htarget (loads_file hchain _ _ (.file hread hchildren) hfit) hlater

end

end IncludeTree

open IncludeTree

/-- Lines that are loaded are those of an include tree that fits below the open files. -/
def LoadTask.HasTree (files : SourceFiles) (scope : Scope) : LoadTask → List LogicalLine → Prop
  | .file chain path _, out => chain.Nodup →
    ∃ t : IncludeTree, t.IsRootedAt files scope path ∧ t.lines = out ∧ t.FitsBelow files chain
  | .lines chain rest, out => chain.Nodup →
    ∃ trees, List.Forall₂ (StandsFor files scope) rest trees ∧ linesOfAll trees = out
      ∧ ∀ t ∈ trees, t.FitsBelow files chain

/-- What is loaded is the expansion of an include tree. -/
theorem Loads.hasTree {task : LoadTask} {r : Except DescriptionError (List LogicalLine)} (h : Loads files scope task r)
    {out : List LogicalLine} (hout : r = .ok out) : task.HasTree files scope out := by
  induction h generalizing out with
  | tooDeep => cases hout
  | unreadable => cases hout
  | cycle => cases hout
  | opened hroom hread hnew _ ih =>
    intro hchain
    obtain ⟨trees, hstands, rfl, hfits⟩ := ih hout (List.nodup_cons.mpr ⟨hnew, hchain⟩)
    exact ⟨_, .file hread hstands, rfl, (fitsBelow_file hchain).mpr ⟨hroom, hnew, hfits⟩⟩
  | nil =>
    cases hout
    exact fun _ => ⟨[], .nil, rfl, fun _ h => absurd h List.not_mem_nil⟩
  | line hline _ ih =>
    intro hchain
    obtain ⟨later, hlater, rfl⟩ := map_eq_ok.1 hout
    obtain ⟨trees, hstands, rfl, hfits⟩ := ih hlater hchain
    refine ⟨_, .cons (.line hline) hstands, rfl, List.forall_mem_cons.mpr ⟨fun c hc => ?_, hfits⟩⟩
    rw [chains] at hc
    cases hc
  | badDirective => cases hout
  | refused => cases hout
  | included hline htarget _ _ ihfile ihrest =>
    intro hchain
    obtain ⟨later, hlater, rfl⟩ := map_eq_ok.1 hout
    obtain ⟨t, hroot, rfl, hfit⟩ := ihfile rfl hchain
    obtain ⟨trees, hstands, rfl, hfits⟩ := ihrest hlater hchain
    cases hroot with
    | file hread hchildren =>
      exact ⟨_, .cons (.file hline htarget hread hchildren) hstands, rfl, List.forall_mem_cons.mpr ⟨hfit, hfits⟩⟩

/-! ## §3 The places of lines -/

theorem prefix_joinPieces (left right : List Char) : left <+: joinPieces left right := by
  unfold joinPieces
  split
  · exact List.prefix_append _ _
  · exact List.prefix_append _ _

/-- A group of lines continues the pending one, or starts with the line of its number. -/
theorem exists_line_of_mem_groupLines {number : Nat} {pending : Option (Nat × List Char)} {lines : List (List Char)}
    {group : Nat × List Char} (h : group ∈ groupLines number pending lines) :
    (∃ p ∈ pending, group.1 = p.1 ∧ p.2 <+: group.2)
      ∨ ∃ k raw, lines[k]? = some raw ∧ group.1 = number + k ∧ (lineContent (Text.trimChars raw)).1 <+: group.2 := by
  induction lines generalizing number pending with
  | nil => exact .inl ⟨group, Option.mem_toList.mp h, rfl, List.prefix_rfl⟩
  | cons raw rest ih =>
    -- A line of the rest is one place further on.
    have hlater : (∃ k raw', rest[k]? = some raw' ∧ group.1 = number + 1 + k
        ∧ (lineContent (Text.trimChars raw')).1 <+: group.2) →
        ∃ k raw', (raw :: rest)[k]? = some raw' ∧ group.1 = number + k
          ∧ (lineContent (Text.trimChars raw')).1 <+: group.2 := by
      rintro ⟨k, raw', hraw, hnumber, hcontent⟩
      exact ⟨k + 1, raw', hraw, by omega, hcontent⟩
    have hnone : (∃ p ∈ (none : Option (Nat × List Char)), group.1 = p.1 ∧ p.2 <+: group.2) → False := by
      rintro ⟨p, hp, -⟩
      cases hp
    cases hskip : pending.isNone && isSkippedLine (Text.trimChars raw) with
    | true =>
      rw [groupLines_skipped hskip] at h
      exact .inr (hlater ((ih h).resolve_left hnone))
    | false =>
      obtain ⟨content, continued, hcontent⟩ :
          ∃ content continued, lineContent (Text.trimChars raw) = (content, continued) := ⟨_, _, rfl⟩
      -- The line goes on with the pending one, or it is the first of its group.
      have hown : group.1 = (pending.getD (number, [])).1 ∧ joinPieces (pending.getD (number, [])).2 content <+: group.2 →
          (∃ p ∈ pending, group.1 = p.1 ∧ p.2 <+: group.2) ∨ ∃ k raw', (raw :: rest)[k]? = some raw'
            ∧ group.1 = number + k ∧ (lineContent (Text.trimChars raw')).1 <+: group.2 := by
        rintro ⟨hnumber, hprefix⟩
        cases pending with
        | some p => exact .inl ⟨p, rfl, hnumber, (prefix_joinPieces _ _).trans hprefix⟩
        | none => exact .inr ⟨0, raw, rfl, hnumber, by rw [hcontent]; exact hprefix⟩
      rw [groupLines_read hskip hcontent] at h
      cases continued with
      | true =>
        rcases ih h with ⟨p, hp, hgroup⟩ | hfound
        · cases hp
          exact hown hgroup
        · exact .inr (hlater hfound)
      | false =>
        rcases List.mem_cons.mp h with rfl | h
        · exact hown ⟨rfl, List.prefix_rfl⟩
        · exact .inr (hlater ((ih h).resolve_left hnone))

/-- A line is a logical line of the file that it names, and starts there with the content of the line that has its
    number. -/
def LogicalLine.ComesFrom (files : SourceFiles) (l : LogicalLine) : Prop :=
  ∃ text n raw, files.read l.location.file = .ok text ∧ l ∈ logicalLines l.location.file text
    ∧ l.location.line = n + 1 ∧ (Text.lineChars text.toList)[n]? = some raw
    ∧ (lineContent (Text.trimChars raw)).1 <+: l.text.toList

theorem comesFrom_of_mem {path text : String} (hread : files.read path = .ok text) {l : LogicalLine}
    (hl : l ∈ logicalLines path text) : l.ComesFrom files := by
  have hmem := hl
  obtain ⟨group, hgroup, rfl⟩ := List.mem_map.mp hl
  obtain ⟨p, hp, -⟩ | ⟨n, raw, hraw, hnumber, hcontent⟩ := exists_line_of_mem_groupLines (List.mem_filter.mp hgroup).1
  · cases hp
  · refine ⟨text, n, raw, hread, hmem, hnumber.trans (Nat.add_comm 1 n), hraw, ?_⟩
    rwa [String.toList_ofList]

/-- The lines that a task starts with. -/
def LoadTask.given : LoadTask → List LogicalLine
  | .file .. => []
  | .lines _ rest => rest

/-- Every line that is loaded comes from the place that it names. -/
theorem Loads.comesFrom {task : LoadTask} {r : Except DescriptionError (List LogicalLine)}
    (h : Loads files scope task r) {out : List LogicalLine} (hout : r = .ok out)
    (hgiven : ∀ l ∈ task.given, l.ComesFrom files) : ∀ l ∈ out, l.ComesFrom files := by
  induction h generalizing out with
  | tooDeep => cases hout
  | unreadable => cases hout
  | cycle => cases hout
  | opened _ hread _ _ ih => exact ih hout fun l hl => comesFrom_of_mem hread hl
  | nil =>
    cases hout
    exact hgiven
  | line _ _ ih =>
    obtain ⟨later, hlater, rfl⟩ := map_eq_ok.1 hout
    obtain ⟨hfirst, hrest⟩ := List.forall_mem_cons.mp hgiven
    exact List.forall_mem_cons.mpr ⟨hfirst, ih hlater hrest⟩
  | badDirective => cases hout
  | refused => cases hout
  | included _ _ _ _ ihfile ihrest =>
    obtain ⟨later, hlater, rfl⟩ := map_eq_ok.1 hout
    have hpart := ihfile rfl fun l hl => absurd hl List.not_mem_nil
    exact List.forall_mem_append.mpr ⟨hpart, ihrest hlater (List.forall_mem_cons.mp hgiven).2⟩

/-! ## §4 Obstacles -/

/-- The directives lead from the file `main` to the file at a path, through the files at the paths `through`, the
    innermost first. -/
inductive LeadsTo (files : SourceFiles) (scope : Scope) (main : String) : List String → String → Prop
  | start : LeadsTo files scope main [] main
  | step {through path text line target} (hpath : LeadsTo files scope main through path)
    (hread : files.read path = .ok text) (hline : line ∈ logicalLines path text)
    (hinclude : isInclude line.text = true) (htarget : includeTarget scope line = .ok target) :
    LeadsTo files scope main (path :: through) target

/-- Why a file cannot be opened behind others, or not be put in the place of its directive: too many files are open, it
    is missing or cannot be read, it is open itself, or it has a directive that names no file. -/
inductive Obstacle (files : SourceFiles) (scope : Scope) (through : List String) (path : String) : Prop
  | tooDeep (hdeep : maxIncludeDepth ≤ through.length)
  | unreadable {fault} (hread : files.read path = .error fault)
  | cycle (hopen : files.identity path ∈ through.map files.identity)
  | badDirective {text line fault} (hread : files.read path = .ok text) (hline : line ∈ logicalLines path text)
    (hinclude : isInclude line.text = true) (htarget : includeTarget scope line = .error fault)

/-- Wherever directives led to a task, they lead to an obstacle. -/
def LoadTask.MeetsObstacle (files : SourceFiles) (scope : Scope) (main : String) : LoadTask → Prop
  | .file chain path _ => ∀ through, chain = through.map files.identity → LeadsTo files scope main through path →
    ∃ through' path', LeadsTo files scope main through' path' ∧ Obstacle files scope through' path'
  | .lines chain rest => ∀ through path text, chain = (path :: through).map files.identity →
    LeadsTo files scope main through path → files.read path = .ok text → rest ⊆ logicalLines path text →
    ∃ through' path', LeadsTo files scope main through' path' ∧ Obstacle files scope through' path'

/-- What is refused meets an obstacle. -/
theorem Loads.meetsObstacle {task : LoadTask} {r : Except DescriptionError (List LogicalLine)}
    (h : Loads files scope task r) (main : String) {e : DescriptionError} (hr : r = .error e) :
    task.MeetsObstacle files scope main := by
  induction h generalizing e with
  | tooDeep hdeep =>
    rintro through rfl hpath
    exact ⟨_, _, hpath, .tooDeep (by rwa [List.length_map] at hdeep)⟩
  | unreadable _ hread =>
    rintro through rfl hpath
    exact ⟨_, _, hpath, .unreadable hread⟩
  | cycle _ _ hopen =>
    rintro through rfl hpath
    exact ⟨_, _, hpath, .cycle hopen⟩
  | opened _ hread _ _ ih =>
    rintro through rfl hpath
    exact ih hr through _ _ rfl hpath hread fun _ h => h
  | nil => cases hr
  | line _ _ ih =>
    intro through path text hchain hpath hread hlines
    exact ih (map_eq_error.1 hr) through path text hchain hpath hread (List.subset_of_cons_subset hlines)
  | badDirective hline htarget =>
    intro through path text hchain hpath hread hlines
    exact ⟨_, _, hpath, .badDirective hread (hlines (List.mem_cons_self ..)) hline htarget⟩
  | refused hline htarget _ ih =>
    intro through path text hchain hpath hread hlines
    exact ih rfl _ hchain (.step hpath hread (hlines (List.mem_cons_self ..)) hline htarget)
  | included _ _ _ _ _ ihrest =>
    intro through path text hchain hpath hread hlines
    exact ihrest (map_eq_error.1 hr) through path text hchain hpath hread (List.subset_of_cons_subset hlines)

/-- Where lines are loaded, so are the files that they include. -/
theorem Loads.exists_included {chain : List String} {rest : List LogicalLine}
    {r : Except DescriptionError (List LogicalLine)} (h : Loads files scope (.lines chain rest) r)
    {out : List LogicalLine} (hout : r = .ok out) {line : LogicalLine} (hline : line ∈ rest)
    (hinclude : isInclude line.text = true) : ∃ target part, includeTarget scope line = .ok target
      ∧ Loads files scope (.file chain target line.location) (.ok part) := by
  induction rest generalizing r out with
  | nil => cases hline
  | cons first rest ih =>
    cases h with
    | line hfirst hrest =>
      obtain ⟨later, hlater, -⟩ := map_eq_ok.1 hout
      rcases List.mem_cons.mp hline with rfl | hline
      · rw [hinclude] at hfirst
        cases hfirst
      · exact ih hrest hlater hline
    | badDirective => cases hout
    | refused => cases hout
    | included _ htarget hfile hrest =>
      obtain ⟨later, hlater, -⟩ := map_eq_ok.1 hout
      rcases List.mem_cons.mp hline with rfl | hline
      · exact ⟨_, _, htarget, hfile⟩
      · exact ih hrest hlater hline

/-- Where the first file is loaded, so is every file to which the directives lead. -/
theorem LeadsTo.exists_loads {main path : String} {through : List String} (h : LeadsTo files scope main through path)
    {site : Location} {out : List LogicalLine} (hmain : Loads files scope (.file [] main site) (.ok out)) :
    ∃ site part, Loads files scope (.file (through.map files.identity) path site) (.ok part) := by
  induction h with
  | start => exact ⟨_, _, hmain⟩
  | step _ hread hline hinclude htarget ih =>
    obtain ⟨site, part, hloads⟩ := ih
    cases hloads with
    | opened hroom hread' hnew hlines =>
      cases hread.symm.trans hread'
      obtain ⟨target, inner, htarget', hfile⟩ := hlines.exists_included rfl hline hinclude
      cases htarget.symm.trans htarget'
      exact ⟨_, _, hfile⟩

/-- A file that is loaded is no obstacle. -/
theorem Loads.not_obstacle {through : List String} {path : String} {site : Location} {out : List LogicalLine}
    (h : Loads files scope (.file (through.map files.identity) path site) (.ok out)) :
    ¬Obstacle files scope through path := by
  cases h with
  | opened hroom hread hnew hlines =>
    rintro (hdeep | hunreadable | hopen | ⟨hread', hline, hinclude, htarget⟩)
    · rw [List.length_map] at hroom
      exact Nat.not_lt_of_le hdeep hroom
    · cases hread.symm.trans hunreadable
    · exact hnew hopen
    · cases hread.symm.trans hread'
      obtain ⟨target, part, htarget', -⟩ := hlines.exists_included rfl hline hinclude
      cases htarget.symm.trans htarget'

/-! ## §5 Files of a tree -/

/-- A file of a tree that can be read is held under its path from the root, and that path is its identity, however the
    file was named. -/
theorem SourceFiles.exists_node_of_read {α : Type} {t : FileTree α} {text? : α → Option String} {path text : String}
    (h : (ofTree t text?).read path = .ok text) : ∃ canonical content,
      t.nodes.find? canonical = some (.file content) ∧ text? content = some text
        ∧ (ofTree t text?).identity path = "/" ++ canonical := by
  simp only [ofTree, FileTree.read] at h ⊢
  cases hplace : t.locate path with
  | error fault =>
    rw [hplace] at h
    cases h
  | ok place =>
    rw [hplace] at h
    dsimp only at h ⊢
    cases hnode : t.node? place with
    | none =>
      rw [hnode] at h
      cases h
    | some node =>
      rw [hnode] at h
      cases node with
      | directory => cases h
      | file content =>
        cases htext : text? content with
        | none =>
          simp only [htext] at h
          cases h
        | some other =>
          simp only [htext] at h
          cases h
          refine ⟨FileTree.pathOf place, content, ?_, htext, if_pos rfl⟩
          unfold FileTree.node? at hnode
          split at hnode
          · cases hnode
          · exact hnode

/-! ## §6 The first file -/

/-- Loading a description ends, with one result. It is accepted iff the file has an include tree in which no chain of
    files from the root meets a file twice or has more than `maxIncludeDepth` files; then its lines are those of the
    tree, depth first, and each comes from the file and the line that it names. It is refused iff the directives lead
    to an obstacle. -/
theorem loadFile_expands (files : SourceFiles) (scope : Scope) (path : String) :
    (∃! r, Loads files scope (.file [] path ⟨path, 0⟩) r)
      ∧ Loads files scope (.file [] path ⟨path, 0⟩) (loadFile files scope path)
      ∧ (∀ out, loadFile files scope path = .ok out ↔ ∃ t : IncludeTree, t.IsRootedAt files scope path ∧ t.lines = out
        ∧ ∀ c ∈ t.chains, (c.map files.identity).Nodup ∧ c.length ≤ maxIncludeDepth)
      ∧ (∀ out, loadFile files scope path = .ok out → ∀ l ∈ out, l.ComesFrom files)
      ∧ ((∃ e, loadFile files scope path = .error e) ↔
        ∃ through reached, LeadsTo files scope path through reached ∧ Obstacle files scope through reached) := by
  have hload : Loads files scope (.file [] path ⟨path, 0⟩) (loadFile files scope path) := loads_run (.file [] path ⟨path, 0⟩)
  have hfits : ∀ t : IncludeTree, t.FitsBelow files []
      ↔ ∀ c ∈ t.chains, (c.map files.identity).Nodup ∧ c.length ≤ maxIncludeDepth := by
    intro t
    simp only [FitsBelow, List.reverse_nil, List.nil_append, List.length_nil, Nat.zero_add]
  refine ⟨⟨_, hload, fun r hr => hr.run_eq.symm⟩, hload, fun out => ⟨fun hout => ?_, ?_⟩, fun out hout => ?_,
    ⟨?_, ?_⟩⟩
  · obtain ⟨t, hroot, hlines, hchains⟩ := hload.hasTree hout List.nodup_nil
    exact ⟨t, hroot, hlines, (hfits t).mp hchains⟩
  · rintro ⟨t, hroot, rfl, hchains⟩
    exact (loads_file List.nodup_nil t _ hroot ((hfits t).mpr hchains)).run_eq
  · exact hload.comesFrom hout fun l hl => absurd hl List.not_mem_nil
  · rintro ⟨e, he⟩
    exact hload.meetsObstacle path he [] rfl .start
  · rintro ⟨through, reached, hleads, hobstacle⟩
    cases hresult : loadFile files scope path with
    | error e => exact ⟨e, rfl⟩
    | ok out =>
      rw [hresult] at hload
      obtain ⟨site, part, hpart⟩ := hleads.exists_loads hload
      exact absurd hobstacle hpart.not_obstacle

/-- A file that is included through two others stands twice in the tree, once on each chain. -/
def sharedFiles : SourceFiles :=
  .ofTree (.ofFiles [] [("main", "include 'a'\ninclude 'b'\n"), ("a", "include \"c\"\n"), ("b", "include './c'\n"),
    ("c", "[graph]\n")]) some

theorem sharedFiles_expands : ∃ out, loadFile sharedFiles (.new ∅ ∅) "main" = .ok out
    ∧ out = [⟨⟨"c", 1⟩, "[graph]"⟩, ⟨⟨"./c", 1⟩, "[graph]"⟩]
    ∧ ∃ t : IncludeTree, t.IsRootedAt sharedFiles (.new ∅ ∅) "main" ∧ t.lines = out
      ∧ ∀ c ∈ t.chains, (c.map sharedFiles.identity).Nodup ∧ c.length ≤ maxIncludeDepth := by
  have hrun : (loadFile sharedFiles (.new ∅ ∅) "main").toOption.map id
      = some [⟨⟨"c", 1⟩, "[graph]"⟩, ⟨⟨"./c", 1⟩, "[graph]"⟩] := by
    decide +kernel
  obtain ⟨out, hout, hlines⟩ := exists_eq_ok hrun
  obtain ⟨-, -, haccepted, -, -⟩ := loadFile_expands sharedFiles (.new ∅ ∅) "main"
  exact ⟨out, hout, hlines, (haccepted out).mp hout⟩

end BenchPlot
