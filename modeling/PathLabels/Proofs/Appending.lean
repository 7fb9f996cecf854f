import PathLabels.Proofs.Existence
import PathLabels.Proofs.ExitCode

/-!
# What writing at the end of a file leaves behind

A file is written by its path, and read by its path afterwards. Writing changes one place of a tree:
a file comes to stand there, and whatever else stood anywhere is still there and of the same kind.
So the path leads to the same place as before, and whoever writes again finds the file that the
first one has left. What a file holds after any number of writes is what it held before, and then
what was written, in order.
-/

namespace PathLabels

namespace FileTree

variable {t t' next : FileTree} {place target directory names : List String} {path name : String}
  {contents bytes : List UInt8}

/-! ## Trees with something changed -/

theorem lookup_cons_eq (first name : String) (t : FileTree) (entries : List (String × FileTree)) :
    ((first, t) :: entries).lookup name = if name = first then some t else entries.lookup name := by
  rw [List.lookup_cons]
  by_cases h : name = first
  · rw [if_pos h, beq_iff_eq.mpr h]
  · rw [if_neg h, beq_eq_false_iff_ne.mpr h]

theorem lookup_put (name other : String) (t : FileTree) (entries : List (String × FileTree)) :
    (put name t entries).lookup other
      = if other = name then some t else entries.lookup other := by
  induction entries with
  | nil => exact lookup_cons_eq name other t []
  | cons e entries ih =>
    obtain ⟨first, t'⟩ := e
    rw [put]
    dsimp only
    by_cases hfirst : first = name
    · -- the first entry has the name, and no other can be found under it
      rw [if_pos hfirst, lookup_cons_eq, lookup_cons_eq, hfirst]
      split <;> rfl
    · rw [if_neg hfirst, lookup_cons_eq, lookup_cons_eq, ih]
      by_cases hother : other = first
      · rw [if_pos hother, if_pos hother, if_neg (hother ▸ hfirst)]
      · rw [if_neg hother, if_neg hother]

/-- The changed thing stands at the place. -/
theorem get?_alter (change : Option FileTree → FileTree) (names : List String)
    (t? : Option FileTree) :
    (alter change names t?).get? names = some (change (t?.bind fun t => t.get? names)) := by
  induction names generalizing t? with
  | nil =>
    rw [alter, get?]
    congr
    cases t? <;> rfl
  | cons name names ih =>
    have hentries (entries : List (String × FileTree)) :
        (FileTree.directory (put name (alter change names (entries.lookup name)) entries)).get?
            (name :: names)
          = some (change ((entries.lookup name).bind fun t => t.get? names)) := by
      rw [get?, child?, lookup_put, if_pos rfl, Option.bind_some, ih]
    rcases t? with - | contents | entries
    · exact hentries []
    · exact hentries []
    · exact hentries entries

theorem get?_withFile (t : FileTree) (place : List String) (contents : List UInt8) :
    (t.withFile place contents).get? place = some (.file contents) :=
  get?_alter _ place (some t)

/-- Whatever stands at a place of one tree stands there in another one too, and is of the same
kind. -/
def Keeps (t t' : FileTree) : Prop :=
  ∀ names found, t.get? names = some found →
    ∃ found', t'.get? names = some found' ∧ found'.isDirectory = found.isDirectory

theorem keeps_file (contents contents' : List UInt8) :
    (FileTree.file contents).Keeps (.file contents') := by
  intro names found hget
  cases names with
  | nil => exact ⟨_, rfl, by rw [← Option.some.inj hget]; rfl⟩
  | cons name names => cases hget

theorem keeps_put {entries : List (String × FileTree)}
    (h : ∀ t, entries.lookup name = some t → t.Keeps next) :
    (FileTree.directory entries).Keeps (.directory (put name next entries)) := by
  intro names found hget
  cases names with
  | nil => exact ⟨_, rfl, by rw [← Option.some.inj hget]; rfl⟩
  | cons first names =>
    obtain ⟨t, hlookup, hrest⟩ := Option.bind_eq_some_iff.mp hget
    rw [get?, child?, lookup_put]
    by_cases hfirst : first = name
    · rw [if_pos hfirst]
      exact h t (hfirst ▸ hlookup) names found hrest
    · rw [if_neg hfirst]
      exact ⟨found, hget, rfl⟩

/-- **A file that comes into a directory, or into the place of a file, changes no kind.** -/
theorem keeps_withFile (contents : List UInt8)
    (hdirectory : ∃ entries, t.get? directory = some (.directory entries))
    (hplace : ∀ found, t.get? (directory ++ [name]) = some found → found.isDirectory = false) :
    t.Keeps (t.withFile (directory ++ [name]) contents) := by
  obtain ⟨inside, hdirectory⟩ := hdirectory
  -- on the names of the directory, because writing goes down by them
  induction directory generalizing t with
  | nil =>
    obtain rfl := Option.some.inj hdirectory
    refine keeps_put fun old hold => ?_
    -- what had the name before, if anything, was a file
    have hkind := hplace old (by rw [List.nil_append, get?, child?, hold]; rfl)
    cases old with
    | file contents' => exact keeps_file contents' contents
    | directory entries => cases hkind
  | cons first directory ih =>
    obtain ⟨below, hchild, hrest⟩ := Option.bind_eq_some_iff.mp hdirectory
    cases t with
    | file => cases hchild
    | directory entries =>
      have hbelow : ∀ found, below.get? (directory ++ [name]) = some found →
          found.isDirectory = false :=
        fun found hfound => hplace found (Option.bind_eq_some_iff.mpr ⟨below, hchild, hfound⟩)
      refine keeps_put fun old hold => ?_
      obtain rfl := Option.some.inj (hchild.symm.trans hold)
      rw [show entries.lookup first = _ from hchild]
      exact ih hbelow hrest

/-! ## The way to a file -/

theorem get?_concat {here : FileTree} (h : t.get? place = some here) (name : String) :
    t.get? (place ++ [name]) = here.child? name := by
  rw [get?_append, h, Option.bind_some, get?]
  cases here.child? name <;> rfl

/-- One component leads on from a directory, to the place itself, one place up or to an entry. -/
theorem step_eq_ok_iff :
    t.step place name = .ok target ↔ ∃ here, t.get? place = some here ∧ here.isDirectory = true
      ∧ ((name = "." ∧ place = target)
        ∨ (name ≠ "." ∧ name = ".." ∧ place.dropLast = target)
        ∨ (name ≠ "." ∧ name ≠ ".." ∧ name.utf8ByteSize ≤ nameLimit
            ∧ (here.child? name).isSome = true ∧ place ++ [name] = target)) := by
  unfold step
  cases hhere : t.get? place with
  | none => exact ⟨nofun, nofun⟩
  | some here =>
    simp only [Option.some.injEq, exists_eq_left', ← Nat.not_lt]
    cases here.isDirectory with
    | false => exact ⟨nofun, fun h => nomatch h.1⟩
    | true =>
      by_cases hdot : name = "."
      · simp [hdot]
      by_cases hdots : name = ".."
      · simp [hdots]
      by_cases hlong : nameLimit < name.utf8ByteSize
      · simp [hdot, hdots, hlong]
      cases (here.child? name).isSome with
      | false => simp [hdot, hdots, hlong]
      | true => simp [hdot, hdots, hlong]

theorem Keeps.step (h : t.Keeps t') (hstep : t.step place name = .ok target) :
    t'.step place name = .ok target := by
  obtain ⟨here, hhere, hkind, hname⟩ := step_eq_ok_iff.mp hstep
  obtain ⟨here', hhere', hkind'⟩ := h place here hhere
  refine step_eq_ok_iff.mpr ⟨here', hhere', hkind'.trans hkind, hname.imp_right (Or.imp_right ?_)⟩
  rintro ⟨hdot, hdots, hshort, hchild, htarget⟩
  -- the entry that is followed is still there
  obtain ⟨child, hchild⟩ := Option.isSome_iff_exists.mp hchild
  obtain ⟨child', hchild', -⟩ := h (place ++ [name]) child (by rw [get?_concat hhere, hchild])
  rw [get?_concat hhere'] at hchild'
  exact ⟨hdot, hdots, hshort, by rw [hchild']; rfl, htarget⟩

theorem Keeps.walk (h : t.Keeps t') (hwalk : t.walk place names = .ok target) :
    t'.walk place names = .ok target := by
  induction names generalizing place with
  | nil => exact hwalk
  | cons name names ih =>
    unfold FileTree.walk at hwalk ⊢
    rw [List.foldlM_cons] at hwalk ⊢
    obtain ⟨next, hnext, hrest⟩ := bind_eq_ok_iff.mp hwalk
    rw [h.step hnext]
    exact ih hrest

theorem walk_concat (t : FileTree) (place names : List String) (name : String) :
    t.walk place (names ++ [name]) = t.walk place names >>= fun place => t.step place name := by
  rw [FileTree.walk, List.foldlM_append]
  exact congrArg _ (funext fun place => bind_pure (t.step place name))

/-- A path names an entry that a directory has or could have. -/
structure Names (t : FileTree) (place : List String) (path : String) (directory : List String)
    (name : String) : Prop where
  nonempty : path.isEmpty = false
  noSlash : path.toList.getLast? ≠ some '/'
  notDot : name ≠ "."
  notDots : name ≠ ".."
  short : name.utf8ByteSize ≤ nameLimit
  leads : ∃ names, Path.components path.toList = names ++ [name]
    ∧ t.walk (origin place path) names = .ok directory
  isDirectory : ∃ entries, t.get? directory = some (.directory entries)

theorem resolveNames_eq_ok_iff : t.resolveNames place names = .ok directory
    ↔ t.walk place names = .ok directory
      ∧ ∃ entries, t.get? directory = some (.directory entries) := by
  unfold resolveNames
  rw [bind_eq_ok_iff]
  constructor
  · rintro ⟨_, hwalk, hstep⟩
    obtain ⟨here, hhere, hkind, ⟨-, rfl⟩ | ⟨h, -⟩ | ⟨h, -⟩⟩ := step_eq_ok_iff.mp hstep
    · cases here with
      | file => cases hkind
      | directory entries => exact ⟨hwalk, entries, hhere⟩
    · exact absurd rfl h
    · exact absurd rfl h
  · rintro ⟨hwalk, entries, hentries⟩
    exact ⟨directory, hwalk, step_eq_ok_iff.mpr ⟨_, hentries, rfl, Or.inl ⟨rfl, rfl⟩⟩⟩

theorem target_eq_ok_iff : t.target place path = .ok target
    ↔ ∃ directory name, t.Names place path directory name ∧ target = directory ++ [name] := by
  unfold FileTree.target
  constructor
  · intro h
    split at h
    · cases h
    rename_i hempty
    obtain ⟨directory, hdirectory, h⟩ := bind_eq_ok_iff.mp h
    obtain ⟨hwalk, hdirectory⟩ := resolveNames_eq_ok_iff.mp hdirectory
    split at h
    · cases h
    rename_i name hlast
    split at h
    · cases h
    rename_i hname
    split at h
    · cases h
    rename_i hshort
    simp only [not_or] at hname
    refine ⟨directory, name, ⟨by simpa using hempty, hname.1, hname.2.1, hname.2.2,
      Nat.le_of_not_lt hshort, ⟨_, ?_, hwalk⟩, hdirectory⟩, (Except.ok.inj h).symm⟩
    exact (List.dropLast_append_getLast? _ hlast).symm
  · rintro ⟨directory, name, h, rfl⟩
    obtain ⟨names, hcomponents, hwalk⟩ := h.leads
    have hdirectory := resolveNames_eq_ok_iff.mpr ⟨hwalk, h.isDirectory⟩
    simp [h.nonempty, hcomponents, hdirectory, h.noSlash, h.notDot, h.notDots,
      Nat.not_lt.mpr h.short]

namespace Names

variable (h : t.Names place path directory name)
include h

theorem keeps (hkeeps : t.Keeps t') : t'.Names place path directory name where
  nonempty := h.nonempty
  noSlash := h.noSlash
  notDot := h.notDot
  notDots := h.notDots
  short := h.short
  leads := by
    obtain ⟨names, hcomponents, hwalk⟩ := h.leads
    exact ⟨names, hcomponents, hkeeps.walk hwalk⟩
  isDirectory := by
    obtain ⟨entries, hentries⟩ := h.isDirectory
    obtain ⟨found, hfound, hkind⟩ := hkeeps directory _ hentries
    cases found with
    | file => cases hkind
    | directory entries' => exact ⟨entries', hfound⟩

theorem resolve_eq : t.resolve place path
    = if (t.get? (directory ++ [name])).isSome then .ok (directory ++ [name])
      else .error .notFound := by
  obtain ⟨names, hcomponents, hwalk⟩ := h.leads
  obtain ⟨entries, hentries⟩ := h.isDirectory
  have hnames : pathNames path = names ++ [name] := by
    rw [pathNames, if_neg h.noSlash, hcomponents, List.append_nil]
  have hstep : t.step directory name
      = if (t.get? (directory ++ [name])).isSome then .ok (directory ++ [name])
        else .error .notFound := by
    rw [get?_concat hentries]
    simp [step, hentries, FileTree.isDirectory, h.notDot, h.notDots, Nat.not_lt.mpr h.short]
  rw [resolve, h.nonempty, hnames, walk_concat, hwalk, ← hstep]
  rfl

/-- What is read by the path is what stands at the place. -/
theorem read_eq : t.read place path = match t.get? (directory ++ [name]) with
    | some (.file contents) => .ok contents
    | some (.directory _) => .error .isADirectory
    | none => .error .notFound := by
  rw [read, h.resolve_eq]
  cases hfound : t.get? (directory ++ [name]) with
  | none => rfl
  | some found =>
    rw [Option.isSome_some, if_pos rfl]
    simp only [bind, Except.bind, hfound]
    cases found <;> rfl

end Names

/-! ## Files that are there -/

theorem components_cons_ne_nil {c : Char} (hc : c ≠ '/') (s : List Char) :
    Path.components (c :: s) ≠ [] := by
  rw [Path.components, List.splitOn_cons_eq_if_modifyHead, if_neg (by simpa using hc)]
  cases hsplit : s.splitOn '/' with
  | nil => exact absurd hsplit (List.splitOn_ne_nil _ _)
  | cons first pieces => simp

/-- A path has a component unless it ends in a slash. -/
theorem components_ne_nil {s : List Char} (hne : s ≠ []) (hlast : s.getLast? ≠ some '/') :
    Path.components s ≠ [] := by
  induction s with
  | nil => exact absurd rfl hne
  | cons c s ih =>
    by_cases hc : c = '/'
    · subst hc
      cases s with
      | nil => exact absurd rfl hlast
      | cons d s =>
        have hrest : Path.components ('/' :: d :: s) = Path.components (d :: s) :=
          Path.components_append_slash [] (d :: s)
        rw [hrest]
        exact ih (List.cons_ne_nil _ _) (by rwa [List.getLast?_cons_cons] at hlast)
    · exact components_cons_ne_nil hc s

/-- One place up from a directory stands a directory, and at the root the root itself. -/
theorem isDirectory_dropLast {here : FileTree} (h : t.get? place = some here)
    (hdirectory : here.isDirectory = true) :
    ∃ above, t.get? place.dropLast = some above ∧ above.isDirectory = true := by
  rcases List.eq_nil_or_concat place with rfl | ⟨place, name, rfl⟩
  · exact ⟨here, h, hdirectory⟩
  · rw [List.concat_eq_append, get?_append] at h
    obtain ⟨above, habove, hchild⟩ := Option.bind_eq_some_iff.mp h
    rw [List.concat_eq_append, List.dropLast_concat]
    refine ⟨above, habove, ?_⟩
    cases hkind : above.isDirectory with
    | true => rfl
    | false =>
      rw [get?, child?_eq_none_of_not_isDirectory hkind] at hchild
      cases hchild

/-- A path by which a file is read names an entry. -/
theorem exists_names_of_read (h : t.read place path = .ok contents) :
    ∃ directory name, t.Names place path directory name
      ∧ t.get? (directory ++ [name]) = some (.file contents) := by
  obtain ⟨target, hresolve, h⟩ := bind_eq_ok_iff.mp h
  have hfile : t.get? target = some (.file contents) := by
    split at h
    · rename_i contents' hfound
      rw [hfound, Except.ok.inj h]
    · cases h
    · cases h
  -- a file is no directory, so the way to it ends neither with a slash nor with dots
  have hkind {here : FileTree} (hhere : t.get? target = some here) : here.isDirectory ≠ true := by
    rw [hfile] at hhere
    rw [← Option.some.inj hhere]
    exact Bool.false_ne_true
  unfold resolve at hresolve
  split at hresolve
  · cases hresolve
  rename_i hempty
  have hslash : path.toList.getLast? ≠ some '/' := by
    intro hlast
    rw [pathNames, if_pos hlast, walk_concat] at hresolve
    obtain ⟨directory, -, hstep⟩ := bind_eq_ok_iff.mp hresolve
    obtain ⟨here, hhere, hdirectory, ⟨-, rfl⟩ | ⟨h, -⟩ | ⟨h, -⟩⟩ := step_eq_ok_iff.mp hstep
    · exact hkind hhere hdirectory
    · exact h rfl
    · exact h rfl
  have hpath : path.toList ≠ [] := by
    simpa using hempty
  obtain hnil | ⟨names, name, hnames⟩ := List.eq_nil_or_concat (Path.components path.toList)
  · exact absurd hnil (components_ne_nil hpath hslash)
  rw [List.concat_eq_append] at hnames
  rw [pathNames, if_neg hslash, List.append_nil, hnames, walk_concat] at hresolve
  obtain ⟨directory, hwalk, hstep⟩ := bind_eq_ok_iff.mp hresolve
  obtain ⟨here, hhere, hdirectory, ⟨-, rfl⟩ | ⟨-, -, rfl⟩ | ⟨hdot, hdots, hshort, -, rfl⟩⟩ :=
    step_eq_ok_iff.mp hstep
  · exact absurd hdirectory (hkind hhere)
  · obtain ⟨above, habove, hdirectory'⟩ := isDirectory_dropLast hhere hdirectory
    exact absurd hdirectory' (hkind habove)
  · refine ⟨directory, name, ⟨by simpa using hempty, hslash, hdot, hdots, hshort,
      ⟨names, hnames, hwalk⟩, ?_⟩, hfile⟩
    cases here with
    | file => cases hdirectory
    | directory entries => exact ⟨entries, hhere⟩

/-! ## Writing -/

/-- What the file holds that a path names; nothing if there is none. -/
def held (t : FileTree) (place : List String) (path : String) : List UInt8 :=
  (t.read place path).toOption.getD []

/-- **Writing puts a file where the path leads**, with what it held and then the new bytes. It goes
wrong exactly if the path does not name an entry, or if that is a directory. -/
theorem append_eq_ok_iff_names : t.append place path bytes = .ok t'
    ↔ ∃ directory name, t.Names place path directory name
      ∧ (∀ found, t.get? (directory ++ [name]) = some found → found.isDirectory = false)
      ∧ t' = t.withFile (directory ++ [name]) (t.held place path ++ bytes) := by
  unfold append
  rw [bind_eq_ok_iff]
  constructor
  · rintro ⟨_, htarget, h⟩
    obtain ⟨directory, name, hnames, rfl⟩ := target_eq_ok_iff.mp htarget
    refine ⟨directory, name, hnames, ?_⟩
    rw [held, hnames.read_eq]
    split at h
    · cases h
    · rename_i contents hfound
      rw [hfound]
      refine ⟨fun found heq => ?_, (Except.ok.inj h).symm⟩
      rw [← Option.some.inj heq]
      rfl
    · rename_i hfound
      rw [hfound]
      exact ⟨nofun, (Except.ok.inj h).symm⟩
  · rintro ⟨directory, name, hnames, hfile, rfl⟩
    refine ⟨_, target_eq_ok_iff.mpr ⟨directory, name, hnames, rfl⟩, ?_⟩
    rw [held, hnames.read_eq]
    cases hfound : t.get? (directory ++ [name]) with
    | none => rfl
    | some found =>
      cases found with
      | file contents => rfl
      | directory entries => cases hfile _ hfound

/-- Whoever has written can write again, and reads what was there and what has been written. -/
theorem append_of_append (h : t.append place path bytes = .ok t') :
    (∃ t'', t'.append place path [] = .ok t'')
      ∧ t'.held place path = t.held place path ++ bytes := by
  obtain ⟨directory, name, hnames, hfile, rfl⟩ := append_eq_ok_iff_names.mp h
  -- the path leads to the same place, and the new file stands there
  have hkeeps := keeps_withFile (t.held place path ++ bytes) hnames.isDirectory hfile
  have hget := t.get?_withFile (directory ++ [name]) (t.held place path ++ bytes)
  have hnames' := hnames.keeps hkeeps
  refine ⟨⟨_, append_eq_ok_iff_names.mpr ⟨directory, name, hnames', fun found hfound => ?_, rfl⟩⟩,
    ?_⟩
  · rw [hget] at hfound
    rw [← Option.some.inj hfound]
    rfl
  · conv_lhs => rw [held, hnames'.read_eq, hget]
    rfl

end FileTree

/-! ## Any number of writes -/

namespace World

variable {w : World} {path : String}

theorem canWrite_some_iff :
    w.CanWrite (some path) ↔ ∃ tree, w.tree.append w.workDir path [] = .ok tree :=
  ⟨fun h => h path rfl, fun h _ heq => Option.some.inj heq ▸ h⟩

/-- A file can be written whose path names an entry, unless that is a directory. -/
theorem canWrite_iff : w.CanWrite (some path)
    ↔ ∃ directory name, w.tree.Names w.workDir path directory name
      ∧ ∀ found, w.tree.get? (directory ++ [name]) = some found → found.isDirectory = false := by
  rw [canWrite_some_iff]
  constructor
  · rintro ⟨tree, htree⟩
    obtain ⟨directory, name, hnames, hfile, -⟩ := FileTree.append_eq_ok_iff_names.mp htree
    exact ⟨directory, name, hnames, hfile⟩
  · rintro ⟨directory, name, hnames, hfile⟩
    exact ⟨_, FileTree.append_eq_ok_iff_names.mpr ⟨directory, name, hnames, hfile, rfl⟩⟩

/-- A file that is there can be written. -/
theorem canWrite_of_read {contents : List UInt8}
    (h : w.tree.read w.workDir path = .ok contents) : w.CanWrite (some path) := by
  obtain ⟨directory, name, hnames, hget⟩ := FileTree.exists_names_of_read h
  refine canWrite_iff.mpr ⟨directory, name, hnames, fun found hfound => ?_⟩
  rw [hget] at hfound
  rw [← Option.some.inj hfound]
  rfl

/-- A file that is not there can be written if its directory is. -/
theorem canWrite_of_absent {directory : List String} {name : String}
    (hnames : w.tree.Names w.workDir path directory name)
    (habsent : w.tree.get? (directory ++ [name]) = none) :
    w.CanWrite (some path) ∧ w.tree.held w.workDir path = [] := by
  refine ⟨canWrite_iff.mpr ⟨directory, name, hnames, fun found hfound => ?_⟩, ?_⟩
  · rw [habsent] at hfound
    cases hfound
  · rw [FileTree.held, hnames.read_eq, habsent]
    rfl

/-- A directory cannot be written as a file. -/
theorem not_canWrite_of_directory {place : List String} {entries : List (String × FileTree)}
    (hplace : w.tree.resolve w.workDir path = .ok place)
    (hget : w.tree.get? place = some (.directory entries)) : ¬w.CanWrite (some path) := by
  intro hwrite
  obtain ⟨directory, name, hnames, hfile⟩ := canWrite_iff.mp hwrite
  rw [hnames.resolve_eq] at hplace
  split at hplace
  · obtain rfl := Except.ok.inj hplace
    cases hfile _ hget
  · cases hplace

/-- No file can be written whose directory is not there. -/
theorem not_canWrite_of_missing {names : List String} {name : String} {e : IoError}
    (hcomponents : Path.components path.toList = names ++ [name])
    (hmissing : w.tree.walk (FileTree.origin w.workDir path) names = .error e) :
    ¬w.CanWrite (some path) := by
  intro hwrite
  obtain ⟨directory, name', hnames, -⟩ := canWrite_iff.mp hwrite
  obtain ⟨names', hcomponents', hwalk⟩ := hnames.leads
  -- it is the same way that would have to lead to the directory
  obtain ⟨rfl, -⟩ := List.append_inj' (hcomponents.symm.trans hcomponents') rfl
  rw [hmissing] at hwalk
  cases hwalk

/-- One write to a file that can be written. -/
theorem run_appendFile_of_canWrite (hwrite : w.CanWrite (some path)) (bytes : List UInt8) :
    ∃ tree, (host.appendFile path bytes).run w = (.ok (), { w with tree })
      ∧ World.CanWrite { w with tree } (some path)
      ∧ tree.held w.workDir path = w.tree.held w.workDir path ++ bytes := by
  obtain ⟨tree, htree⟩ := (w.tree.append_eq_ok_iff w.workDir path bytes).mpr
    (canWrite_some_iff.mp hwrite)
  obtain ⟨hagain, hheld⟩ := FileTree.append_of_append htree
  refine ⟨tree, ?_, canWrite_some_iff.mpr hagain, hheld⟩
  show w.appendFile path bytes = _
  rw [appendFile, htree]

/-- One write to a file that cannot be written. -/
theorem run_appendFile_of_not_canWrite (hwrite : ¬w.CanWrite (some path)) (bytes : List UInt8) :
    ∃ e, (host.appendFile path bytes).run w = (.error e, w) := by
  show ∃ e, w.appendFile path bytes = _
  rw [appendFile]
  cases happend : w.tree.append w.workDir path bytes with
  | error e => exact ⟨e, rfl⟩
  | ok tree =>
    exact absurd (canWrite_some_iff.mpr
      ((w.tree.append_eq_ok_iff w.workDir path bytes).mp ⟨tree, happend⟩)) hwrite

/-- **Blocks written one after the other stand one after the other**, behind what was there. -/
theorem run_appendFiles_of_canWrite (hwrite : w.CanWrite (some path))
    (blocks : List (List UInt8)) :
    ∃ tree, (blocks.mapM (host.appendFile path)).run w
        = (blocks.map fun _ => .ok (), { w with tree })
      ∧ tree.held w.workDir path = w.tree.held w.workDir path ++ blocks.flatten := by
  induction blocks generalizing w with
  | nil => exact ⟨w.tree, rfl, by rw [List.flatten_nil, List.append_nil]⟩
  | cons bytes blocks ih =>
    obtain ⟨tree, hrun, hagain, hheld⟩ := run_appendFile_of_canWrite hwrite bytes
    obtain ⟨tree', hrun', hheld'⟩ := ih hagain
    refine ⟨tree', ?_, by rw [hheld', hheld, List.flatten_cons, List.append_assoc]⟩
    rw [List.mapM_cons, StateM.run_bind, hrun]
    dsimp only
    rw [StateM.run_bind, hrun']
    rfl

/-- A file that cannot be written is written by none of several writes. -/
theorem run_appendFiles_of_not_canWrite (hwrite : ¬w.CanWrite (some path))
    (blocks : List (List UInt8)) :
    ∃ results, (blocks.mapM (host.appendFile path)).run w = (results, w)
      ∧ ∀ result ∈ results, ∃ e, result = .error e := by
  induction blocks with
  | nil => exact ⟨[], rfl, List.forall_mem_nil _⟩
  | cons bytes blocks ih =>
    obtain ⟨e, hrun⟩ := run_appendFile_of_not_canWrite hwrite bytes
    obtain ⟨results, hrun', hresults⟩ := ih
    refine ⟨.error e :: results, ?_, List.forall_mem_cons.mpr ⟨⟨e, rfl⟩, hresults⟩⟩
    rw [List.mapM_cons, StateM.run_bind, hrun]
    dsimp only
    rw [StateM.run_bind, hrun']
    rfl

end World

end PathLabels
