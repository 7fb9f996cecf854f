import PathLabels.Host.World
import PathLabels.Proofs.Components
import PathLabels.Proofs.Evolution
import PathLabels.Proofs.Subtree
import PathLabels.StalePatterns

/-!
# Stale patterns match nothing

Whether a literal pattern is stale is asked of the file system: its components are followed from the
checkout on, and something has to stand where they end. Whether it matches is asked of paths: its
components have to be the first ones of the path. The two questions have one answer. If something
stands at the end of the components, its own path matches; and where a path that matches leads, its
first components have led on the way.
-/

namespace PathLabels

/-! ## Names -/

/-- What a system lets an entry of a directory be called. -/
structure FileTree.IsName (name : String) : Prop where
  nonempty : name ≠ ""
  noSlash : '/' ∉ name.toList
  notDot : name ≠ "."
  notDots : name ≠ ".."
  short : name.utf8ByteSize ≤ nameLimit

theorem FileTree.IsName.isComponent {name : String} (h : IsName name) : Path.IsComponent name :=
  ⟨h.nonempty, h.noSlash⟩

instance (name : String) : Decidable (FileTree.IsName name) :=
  decidable_of_iff (name ≠ "" ∧ '/' ∉ name.toList ∧ name ≠ "." ∧ name ≠ ".."
      ∧ name.utf8ByteSize ≤ FileTree.nameLimit)
    ⟨fun ⟨h₁, h₂, h₃, h₄, h₅⟩ => ⟨h₁, h₂, h₃, h₄, h₅⟩,
      fun ⟨h₁, h₂, h₃, h₄, h₅⟩ => ⟨h₁, h₂, h₃, h₄, h₅⟩⟩

namespace Path

/-- There is no leading `./` to take away from the path that names make. -/
theorem normalizeChars_join {names : List String} (h : ∀ name ∈ names, FileTree.IsName name) :
    normalizeChars (join names).toList = (join names).toList := by
  unfold normalizeChars
  split
  · rename_i rest heq
    have hcomponents : components (join names).toList = "." :: components rest := by
      rw [heq]
      exact components_append_slash ['.'] rest
    rw [components_join fun name hname => (h name hname).isComponent] at hcomponents
    exact absurd rfl (h "." (hcomponents ▸ List.mem_cons_self)).notDot
  · rfl

end Path

theorem PathPattern.isMatch_literal_join {raw : String} {components names : List String}
    (h : ∀ name ∈ names, FileTree.IsName name) :
    (PathPattern.literal raw components).isMatch (Path.join names) = true
      ↔ components <+: names := by
  rw [isMatch_literal_iff, Path.normalizeChars_join h,
    Path.components_join fun name hname => (h name hname).isComponent]

/-! ## Trees -/

namespace FileTree

mutual

/-- The names that lead to the files and directories below the root of a tree. -/
def places : FileTree → List (List String)
  | .file _ => []
  | .directory entries => placesIn entries

/-- Those that begin with the name of an entry. -/
def placesIn : List (String × FileTree) → List (List String)
  | [] => []
  | (name, t) :: es => [name] :: t.places.map (name :: ·) ++ placesIn es

end

/-- The entries of a directory have different names, all of which a system allows. -/
inductive WellNamed : FileTree → Prop where
  | file (contents : List UInt8) : WellNamed (.file contents)
  | directory {entries : List (String × FileTree)} :
      (entries.map Prod.fst).Nodup → (∀ e ∈ entries, IsName e.1) → (∀ e ∈ entries, WellNamed e.2) →
      WellNamed (.directory entries)

variable {t t' root : FileTree} {place names names' : List String} {name : String}

theorem mem_placesIn_iff {entries : List (String × FileTree)} :
    name :: names ∈ placesIn entries
      ↔ ∃ t, (name, t) ∈ entries ∧ (names = [] ∨ names ∈ t.places) := by
  induction entries with
  | nil => simp [placesIn]
  | cons e es ih =>
    obtain ⟨name', t⟩ := e
    simp only [placesIn, List.cons_append, List.mem_cons, List.mem_append, List.mem_map, ih]
    constructor
    · rintro (h | ⟨names', hnames', h⟩ | ⟨t', ht', h⟩)
      · cases h
        exact ⟨t, Or.inl rfl, Or.inl rfl⟩
      · cases h
        exact ⟨t, Or.inl rfl, Or.inr hnames'⟩
      · exact ⟨t', Or.inr ht', h⟩
    · rintro ⟨t', h | ht', hnames⟩
      · cases h
        rcases hnames with rfl | hnames
        · exact Or.inl rfl
        · exact Or.inr (Or.inl ⟨names, hnames, rfl⟩)
      · exact Or.inr (Or.inr ⟨t', ht', hnames⟩)

/-- An entry is found by its name, because no other has it. -/
theorem lookup_eq_some_iff {entries : List (String × FileTree)}
    (h : (entries.map Prod.fst).Nodup) : entries.lookup name = some t ↔ (name, t) ∈ entries := by
  induction entries with
  | nil => simp
  | cons e es ih =>
    obtain ⟨name', t'⟩ := e
    obtain ⟨hnew, hes⟩ := List.nodup_cons.mp h
    rw [List.lookup_cons, List.mem_cons]
    split
    · rename_i hsame
      obtain rfl := beq_iff_eq.mp hsame
      constructor
      · intro heq
        cases heq
        exact Or.inl rfl
      · rintro (heq | hmem)
        · cases heq
          rfl
        · exact absurd (List.mem_map_of_mem (f := Prod.fst) hmem) hnew
    · rename_i hother
      rw [ih hes]
      refine ⟨Or.inr, fun hmem => hmem.resolve_left fun heq => ?_⟩
      cases heq
      simp at hother

theorem WellNamed.child (h : t.WellNamed) (hchild : t.child? name = some t') :
    IsName name ∧ t'.WellNamed := by
  cases h with
  | file => cases hchild
  | directory hnodup hnames hentries =>
    have hmem := (lookup_eq_some_iff hnodup).mp hchild
    exact ⟨hnames _ hmem, hentries _ hmem⟩

theorem WellNamed.isName (h : t.WellNamed) (hget : t.get? names = some t') :
    ∀ name ∈ names, IsName name := by
  induction names generalizing t with
  | nil => exact List.forall_mem_nil _
  | cons name names ih =>
    obtain ⟨next, hchild, hrest⟩ := Option.bind_eq_some_iff.mp hget
    obtain ⟨hname, hnext⟩ := h.child hchild
    exact List.forall_mem_cons.mpr ⟨hname, ih hnext hrest⟩

theorem nil_not_mem_places : [] ∉ t.places := by
  cases t with
  | file => exact List.not_mem_nil
  | directory entries =>
    rw [places]
    induction entries with
    | nil => exact List.not_mem_nil
    | cons e es ih => simp [placesIn, ih]

/-- **A place is listed exactly if something stands there.** -/
theorem WellNamed.mem_places_iff (h : t.WellNamed) :
    names ∈ t.places ↔ names ≠ [] ∧ (t.get? names).isSome = true := by
  -- on the names and not on the tree, because they are what `get?` goes by
  induction names generalizing t with
  | nil => exact ⟨fun hmem => absurd hmem nil_not_mem_places, fun hne => absurd rfl hne.1⟩
  | cons name names ih =>
    cases h with
    | file => simp [places, get?, child?]
    | @directory entries hnodup hnames hentries =>
      rw [places, mem_placesIn_iff, get?, child?, Option.isSome_iff_exists]
      constructor
      · rintro ⟨next, hmem, hnext⟩
        rw [(lookup_eq_some_iff hnodup).mpr hmem]
        refine ⟨List.cons_ne_nil _ _, ?_⟩
        rcases hnext with rfl | hnext
        · exact ⟨next, rfl⟩
        · exact Option.isSome_iff_exists.mp ((ih (hentries _ hmem)).mp hnext).2
      · rintro ⟨-, found, hfound⟩
        obtain ⟨next, hlookup, hrest⟩ := Option.bind_eq_some_iff.mp hfound
        have hmem := (lookup_eq_some_iff hnodup).mp hlookup
        refine ⟨next, hmem, Decidable.or_iff_not_imp_left.mpr fun hne => ?_⟩
        exact (ih (hentries _ hmem)).mpr ⟨hne, Option.isSome_iff_exists.mpr ⟨found, hrest⟩⟩

theorem get?_append :
    t.get? (names ++ names') = (t.get? names).bind fun here => here.get? names' := by
  induction names generalizing t with
  | nil => rfl
  | cons name names ih =>
    have hnext : ∀ next : FileTree, next.get? (names ++ names')
        = (next.get? names).bind fun here => here.get? names' := fun _ => ih
    simp only [List.cons_append, get?, hnext, Option.bind_assoc]

theorem child?_eq_none_of_not_isDirectory (h : t.isDirectory = false) : t.child? name = none := by
  cases t with
  | file => rfl
  | directory => cases h

section

variable (hroot : root.get? place = some t) (hname : name ≠ "." ∧ name ≠ "..")
include hroot hname

theorem step_of_child (ht : t.WellNamed) (hchild : t.child? name = some t') :
    root.step place name = .ok (place ++ [name]) := by
  have hdirectory : t.isDirectory = true := by
    cases h : t.isDirectory with
    | true => rfl
    | false => rw [child?_eq_none_of_not_isDirectory h] at hchild; cases hchild
  have hshort : ¬nameLimit < name.utf8ByteSize := Nat.not_lt.mpr (ht.child hchild).1.short
  simp [step, hroot, hdirectory, hname.1, hname.2, hshort, hchild]

theorem step_of_no_child (hchild : t.child? name = none) :
    ∃ e, root.step place name = .error e := by
  simp only [step, hroot, hname.1, hname.2, hchild, if_false]
  split
  · exact ⟨_, rfl⟩
  split
  · exact ⟨_, rfl⟩
  · exact ⟨_, rfl⟩

end

/-- **Components lead somewhere exactly if something stands at their end.** -/
theorem leads_eq (hroot : root.get? place = some t) (ht : t.WellNamed)
    (hnames : ∀ name ∈ names, name ≠ "." ∧ name ≠ "..") :
    root.leads place names = (t.get? names).isSome := by
  unfold leads walk
  -- each name that is followed is added to the place, and the tree is what stands there then
  induction names generalizing place t with
  | nil => rfl
  | cons name names ih =>
    obtain ⟨hname, hrest⟩ := List.forall_mem_cons.mp hnames
    rw [List.foldlM_cons]
    cases hchild : t.child? name with
    | none =>
      obtain ⟨e, he⟩ := step_of_no_child hroot hname hchild
      rw [he, get?, hchild]
      rfl
    | some next =>
      have hnext : root.get? (place ++ [name]) = some next := by
        rw [get?_append, hroot]
        simp [get?, hchild]
      rw [step_of_child hroot hname ht hchild, get?, hchild]
      exact ih hnext (ht.child hchild).2 hrest

end FileTree

/-! ## Patterns -/

/-- Whether a pattern names a path and matches nothing in a tree. -/
def PathPattern.isStale (t : FileTree) (p : PathPattern) : Bool :=
  p.literalComponents?.isSome && t.places.all fun names => !p.isMatch (Path.join names)

/-- **A pattern is stale exactly if nothing stands at its path.** -/
theorem PathPattern.isStale_literal {raw : String} {components : List String} {t : FileTree}
    (ht : t.WellNamed) (hne : components ≠ []) :
    (PathPattern.literal raw components).isStale t = !(t.get? components).isSome := by
  have hnames {names : List String} (hsome : (t.get? names).isSome = true) :
      ∀ name ∈ names, FileTree.IsName name := by
    obtain ⟨found, hfound⟩ := Option.isSome_iff_exists.mp hsome
    exact ht.isName hfound
  unfold isStale
  rw [literalComponents?, Option.isSome_some, Bool.true_and]
  cases hsome : (t.get? components).isSome with
  | true =>
    -- the path of the pattern is that of an entry
    rw [Bool.not_true, List.all_eq_false]
    refine ⟨components, ht.mem_places_iff.mpr ⟨hne, hsome⟩, ?_⟩
    rw [(isMatch_literal_join (hnames hsome)).mpr List.prefix_rfl]
    exact Bool.false_ne_true
  | false =>
    rw [Bool.not_false, List.all_eq_true]
    intro names hmem
    obtain ⟨-, hfound⟩ := ht.mem_places_iff.mp hmem
    rw [Bool.not_eq_true', ← Bool.not_eq_true, isMatch_literal_join (hnames hfound)]
    rintro ⟨more, rfl⟩
    -- what stands below the components stands below something
    obtain ⟨found, hfound⟩ := Option.isSome_iff_exists.mp hfound
    rw [FileTree.get?_append] at hfound
    obtain ⟨here, hhere, -⟩ := Option.bind_eq_some_iff.mp hfound
    rw [hhere] at hsome
    cases hsome

namespace RuleTable

/-- The patterns of a compiled table have been read from texts. -/
theorem exists_parse {raw : RawTable} {table : RuleTable} (h : compile raw = .ok table)
    {e : LabelledPattern} (he : e ∈ table.patterns) :
    ∃ text, PathPattern.parse text = .ok e.pattern := by
  have hread {texts : List String} {ps : List PathPattern} {p : PathPattern}
      (hps : compilePatterns texts = .ok ps) (hp : p ∈ ps) :
      ∃ text, PathPattern.parse text = .ok p := by
    obtain ⟨text, -, htext⟩ := (mem_iff_of_mapM_ok hps).mp hp
    exact ⟨text, parse_of_compilePattern htext⟩
  obtain ⟨rule, hrule, hpattern⟩ := List.mem_flatMap.mp he
  obtain ⟨p, hp, rfl⟩ := List.mem_map.mp hpattern
  obtain ⟨rawRule, -, hcompiled⟩ := exists_left_of_mem (compiledFrom_of_compile h).rules hrule
  rcases List.mem_append.mp hp with hdir | hexclusion
  · exact hread hcompiled.dirs hdir
  · exact hread hcompiled.exclusions hexclusion

/-- No path that a pattern names goes through `.` or `..`. -/
def AvoidsDots (table : RuleTable) : Prop :=
  ∀ e ∈ table.patterns, ∀ c ∈ e.pattern.literalComponents?.getD [], c ≠ "." ∧ c ≠ ".."

instance (table : RuleTable) : Decidable table.AvoidsDots :=
  inferInstanceAs (Decidable (∀ e ∈ table.patterns, _))

end RuleTable

theorem StateM.run_filterM {σ α : Type} {f : α → StateM σ Bool} {keep : α → Bool} {s : σ}
    {items : List α} (h : ∀ a ∈ items, (f a).run s = (keep a, s)) :
    (items.filterM f).run s = (items.filter keep, s) := by
  have haux : ∀ kept, (items.filterAuxM f kept).run s
      = ((items.filter keep).reverse ++ kept, s) := by
    induction items with
    | nil => exact fun kept => rfl
    | cons a items ih =>
      intro kept
      obtain ⟨ha, hitems⟩ := List.forall_mem_cons.mp h
      rw [List.filterAuxM, StateM.run_bind, ha, ih hitems, List.filter_cons]
      cases keep a with
      | true => simp
      | false => rfl
  rw [List.filterM, StateM.run_bind, haux, List.append_nil]
  exact congrArg (·, s) (List.reverse_reverse _)

theorem PathPattern.run_isMissing {w : World} {repoDir : String} {place : List String}
    {t : FileTree} (hplace : w.tree.resolve w.workDir repoDir = .ok place)
    (hroot : w.tree.get? place = some t) (ht : t.WellNamed) {text : String} {p : PathPattern}
    (hp : parse text = .ok p)
    (hdots : ∀ c ∈ p.literalComponents?.getD [], c ≠ "." ∧ c ≠ "..") :
    (p.isMissing (World.host.hasPath repoDir)).run w = (p.isStale t, w) := by
  cases p with
  | glob raw exact below specificity => rfl
  | literal raw components =>
    have hleads : w.hasPath repoDir components = (t.get? components).isSome := by
      unfold World.hasPath
      rw [hplace]
      exact FileTree.leads_eq hroot ht hdots
    show (!w.hasPath repoDir components, w) = _
    rw [isStale_literal ht ((components_of_parse hp).2), hleads]

/--
**The patterns that are reported as missing are those that match nothing.**

Let a directory of a world hold a tree whose entries have names that a system allows, and let a
table be compiled from any written one in which no path goes through `.` or `..`. Then what is
reported are the stale patterns of the rules: for each rule in order, first among its owned paths
and then among its exclusions, each with the label of the rule and as it was written, and as often
as it stands there. A glob is never stale, and the patterns of files to ignore are not looked at.
-/
theorem RuleTable.missingPaths_are_stale {raw : RawTable} {table : RuleTable} {w : World}
    {repoDir : String} {place : List String} {t : FileTree} (hcompile : compile raw = .ok table)
    (hdots : table.AvoidsDots) (hplace : w.tree.resolve w.workDir repoDir = .ok place)
    (hroot : w.tree.get? place = some t) (ht : t.WellNamed) :
    (table.missingPaths (World.host.hasPath repoDir)).run w
      = (table.rules.flatMap fun rule =>
          ((rule.dirs ++ rule.exclusions).filter (·.isStale t)).map fun p => (rule.label, p.raw),
        w) := by
  have hmissing : ∀ e ∈ table.patterns,
      (e.pattern.isMissing (World.host.hasPath repoDir)).run w = (e.pattern.isStale t, w) := by
    intro e he
    obtain ⟨text, htext⟩ := exists_parse hcompile he
    exact e.pattern.run_isMissing hplace hroot ht htext (hdots e he)
  unfold missingPaths
  rw [StateM.run_bind, StateM.run_filterM hmissing, patterns, List.filter_flatMap]
  show ((table.rules.flatMap _).map _, w) = _
  rw [List.map_flatMap]
  simp only [List.filter_map, List.map_map, Function.comp_def]

/-- A checkout in which a directory has been renamed to `Sets`. -/
def FileTree.renamed : FileTree :=
  .directory [("Mathlib", .directory [("Topology", .empty), ("Sets", .empty), ("Order", .file [])])]

theorem FileTree.wellNamed_renamed : renamed.WellNamed := by
  have hempty : WellNamed .empty :=
    .directory List.nodup_nil (List.forall_mem_nil _) (List.forall_mem_nil _)
  refine .directory (by decide) (by decide) (List.forall_mem_singleton.mpr ?_)
  refine .directory (by decide) (by decide) ?_
  simp [hempty, WellNamed.file]

/-- The renamed directory, and a path below a file. -/
theorem RuleTable.missingPaths_are_stale_renamed :
    let w : World := { tree := .directory [("repo", .renamed)] }
    let raw : RawTable := { rules := [
      ⟨"t-topology", ["Mathlib/Topology/", "Mathlib/*/None"], ["Mathlib/Order/Basic"]⟩,
      ⟨"t-set-theory", ["Mathlib/SetTheory/"], []⟩] }
    ∃ table, compile raw = .ok table ∧ table.AvoidsDots
      ∧ w.tree.resolve w.workDir "repo" = .ok ["repo"]
      ∧ w.tree.get? ["repo"] = some .renamed ∧ FileTree.renamed.WellNamed
      ∧ (table.missingPaths (World.host.hasPath "repo")).run w
        = ([("t-topology", "Mathlib/Order/Basic"), ("t-set-theory", "Mathlib/SetTheory/")], w) := by
  intro w raw
  have hcompiles : (compile raw).toOption.any (fun table => table.AvoidsDots
      ∧ (table.rules.flatMap fun rule => ((rule.dirs ++ rule.exclusions).filter
          (·.isStale .renamed)).map fun p => (rule.label, p.raw))
        = [("t-topology", "Mathlib/Order/Basic"), ("t-set-theory", "Mathlib/SetTheory/")])
      = true := by
    decide +kernel
  cases hcompile : compile raw with
  | error e =>
    rw [hcompile] at hcompiles
    cases hcompiles
  | ok table =>
    rw [hcompile] at hcompiles
    obtain ⟨hdots, hstale⟩ := of_decide_eq_true hcompiles
    have hplace : w.tree.resolve w.workDir "repo" = .ok ["repo"] := by decide +kernel
    have hroot : w.tree.get? ["repo"] = some .renamed := rfl
    have hrun := missingPaths_are_stale hcompile hdots hplace hroot FileTree.wellNamed_renamed
    exact ⟨table, rfl, hdots, hplace, hroot, FileTree.wellNamed_renamed, hstale ▸ hrun⟩

end PathLabels
