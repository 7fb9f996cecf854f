import PathLabels.Proofs.StepLines

/-!
# Whose line an output stands on

The file of the step outputs belongs to all steps, and whoever reads it goes line by line. A decision
is written at the end of the file, and its own line is ended; what the file ended with before is not
looked at. So everything hangs on whether that was the end of a line. If it was, the lines of the
file stay as they are and the new entry is one more. If another writer has left its last line open,
the entry becomes the rest of that line: the value there is changed, and there is no line that begins
with `labels=`. This can happen to the first entry only, because every entry that is written ends
its line.
-/

namespace PathLabels

namespace Text

variable {bs before last line : List UInt8}

/-- The lines of a file. The last one may be open. -/
def lines : List UInt8 → List (List UInt8)
  | [] => []
  | b :: bs =>
    if b = 10 then [] :: lines bs
    else match lines bs with
      | [] => [[b]]
      | line :: rest => (b :: line) :: rest

/-- No line is left open. -/
def IsEnded (bs : List UInt8) : Prop := ∀ b ∈ bs.getLast?, b = 10

instance (bs : List UInt8) : Decidable (IsEnded bs) :=
  inferInstanceAs (Decidable (∀ b ∈ bs.getLast?, b = 10))

theorem isEnded_nil : IsEnded [] := nofun

theorem isEnded_concat (bs : List UInt8) : IsEnded (bs ++ [10]) := by
  intro b hb
  rw [List.getLast?_concat] at hb
  exact (Option.some.inj hb).symm

theorem isEnded_cons_iff {b : UInt8} (hne : bs ≠ []) : IsEnded (b :: bs) ↔ IsEnded bs := by
  cases bs with
  | nil => exact absurd rfl hne
  | cons c bs => rw [IsEnded, IsEnded, List.getLast?_cons_cons]

theorem lines_ne_nil (h : bs ≠ []) : lines bs ≠ [] := by
  cases bs with
  | nil => exact absurd rfl h
  | cons b bs =>
    rw [lines]
    split
    · exact List.cons_ne_nil _ _
    · split <;> exact List.cons_ne_nil _ _

/-- **What is written behind an ended line begins a line of its own.** -/
theorem lines_append (h : IsEnded before) (bs : List UInt8) :
    lines (before ++ bs) = lines before ++ lines bs := by
  induction before with
  | nil => rfl
  | cons b before ih =>
    by_cases hnil : before = []
    · subst hnil
      have hb : b = 10 := h b rfl
      subst hb
      rfl
    · have hrest := ih ((isEnded_cons_iff hnil).mp h)
      rw [List.cons_append, lines, lines, hrest]
      split
      · rfl
      · cases hlines : lines before with
        | nil => exact absurd hlines (lines_ne_nil hnil)
        | cons line rest => rfl

theorem lines_of_open (hne : last ≠ []) (h : 10 ∉ last) : lines last = [last] := by
  induction last with
  | nil => exact absurd rfl hne
  | cons b last ih =>
    obtain ⟨hb, hlast⟩ := List.ne_and_not_mem_of_not_mem_cons h
    rw [lines, if_neg hb.symm]
    by_cases hnil : last = []
    · rw [hnil]
      rfl
    · rw [ih hnil hlast]

theorem lines_of_ended (h : 10 ∉ line) : lines (line ++ [10]) = [line] := by
  induction line with
  | nil => rfl
  | cons b line ih =>
    obtain ⟨hb, hline⟩ := List.ne_and_not_mem_of_not_mem_cons h
    rw [List.cons_append, lines, if_neg hb.symm, ih hline]

theorem lines_of_all_ended {entries : List (List UInt8)} (h : ∀ entry ∈ entries, 10 ∉ entry) :
    lines (entries.flatMap fun entry => entry ++ [10]) = entries := by
  induction entries with
  | nil => rfl
  | cons entry entries ih =>
    obtain ⟨hentry, hentries⟩ := List.forall_mem_cons.mp h
    rw [List.flatMap_cons, lines_append (isEnded_concat entry), lines_of_ended hentry,
      ih hentries, List.singleton_append]

/-- A file is made of ended lines and of what is left open behind them, if anything is. -/
theorem exists_open (bs : List UInt8) :
    ∃ before last, bs = before ++ last ∧ IsEnded before ∧ 10 ∉ last := by
  induction bs with
  | nil => exact ⟨[], [], rfl, isEnded_nil, List.not_mem_nil⟩
  | cons b bs ih =>
    obtain ⟨before, last, hbs, hended, hlast⟩ := ih
    by_cases hnil : before = []
    · subst hnil
      by_cases hb : b = 10
      · subst hb
        exact ⟨[10], last, by rw [hbs]; rfl, isEnded_concat [], hlast⟩
      · exact ⟨[], b :: last, by rw [hbs]; rfl, isEnded_nil,
          List.not_mem_cons_of_ne_of_not_mem (Ne.symm hb) hlast⟩
    · exact ⟨b :: before, last, by rw [hbs]; rfl, (isEnded_cons_iff hnil).mpr hended, hlast⟩

/-- **A line that was left open takes in what is written.** -/
theorem exists_lines_of_open (h : ¬IsEnded bs) : ∃ earlier last, last ≠ []
    ∧ lines bs = earlier ++ [last]
    ∧ ∀ line, 10 ∉ line → lines (bs ++ (line ++ [10])) = earlier ++ [last ++ line] := by
  obtain ⟨before, last, rfl, hended, hlast⟩ := exists_open bs
  have hne : last ≠ [] := by
    intro hnil
    rw [hnil, List.append_nil] at h
    exact h hended
  refine ⟨lines before, last, hne, ?_, ?_⟩
  · rw [lines_append hended, lines_of_open hne hlast]
  · intro line hline
    have hjoined : 10 ∉ last ++ line := List.not_mem_append hlast hline
    rw [List.append_assoc, lines_append hended, ← List.append_assoc, lines_of_ended hjoined]

/-- An entry is one more line exactly if no line was open. -/
theorem lines_append_entry_iff (hline : 10 ∉ line) :
    lines (bs ++ (line ++ [10])) = lines bs ++ [line] ↔ IsEnded bs := by
  constructor
  · intro hlines
    by_cases hended : IsEnded bs
    · exact hended
    · -- the number of lines would not have grown
      obtain ⟨earlier, last, -, hbefore, hafter⟩ := exists_lines_of_open hended
      have hlength := congrArg List.length hlines
      rw [hafter line hline, hbefore] at hlength
      simp at hlength
  · intro hended
    rw [lines_append hended, lines_of_ended hline]

end Text

theorem FileTree.read_eq_held {t : FileTree} {place : List String} {path : String}
    (h : t.held place path ≠ []) : t.read place path = .ok (t.held place path) := by
  unfold held at h ⊢
  cases hread : t.read place path with
  | error e =>
    rw [hread] at h
    exact absurd rfl h
  | ok contents => rfl

namespace Decision

variable {w : World} {path : String}

/-- The entry of a decision among the step outputs: the line that it adds, without its end. -/
def entryBytes (d : Decision) : List UInt8 := Text.bytes ("labels=" ++ d.labelsText)

theorem bytes_outputLine (d : Decision) : Text.bytes d.outputLine = d.entryBytes ++ [10] := by
  rw [outputLine, Text.bytes_append]
  rfl

theorem lineFeed_not_mem_entryBytes (d : Decision) : 10 ∉ d.entryBytes := d.lineFeed_not_mem_bytes

/-- What a file holds after decisions have been written to it. -/
theorem held_writeOutputs (hwrite : w.CanWrite (some path)) (decisions : List Decision) :
    ((decisions.mapM (writeOutput World.host path)).run w).2.tree.held w.workDir path
      = w.tree.held w.workDir path ++ decisions.flatMap fun d => d.entryBytes ++ [10] := by
  have hmap : decisions.mapM (writeOutput World.host path)
      = (decisions.map fun d => Text.bytes d.outputLine).mapM (World.host.appendFile path) := by
    rw [List.mapM_map]
    rfl
  obtain ⟨tree, hrun, hheld⟩ := World.run_appendFiles_of_canWrite hwrite
    (decisions.map fun d => Text.bytes d.outputLine)
  rw [hmap, hrun]
  dsimp only
  rw [hheld, ← List.flatMap_def]
  exact congrArg _ (List.flatMap_congr fun d _ => d.bytes_outputLine)

/--
**An entry stands on a line of its own if the last line was ended**, and only then.

Let a decision be written to a file that can be written. What the file holds is `before`, which is
nothing if it is not there yet. Afterwards the file is read, and its lines are those from before and
the entry of the decision exactly if no line had been left open. If one had, the lines before that one
stay, and it takes the entry in. The entry is `labels=` and a JSON array of the labels. Now no line is
open, so whatever decisions are written to the file next add a line each.
-/
theorem writeOutput_adds_own_line (d : Decision) (hwrite : w.CanWrite (some path)) :
    let before := w.tree.held w.workDir path
    let ran := (writeOutput World.host path d).run w
    ran.1 = .ok ()
      ∧ (Json.Value.ofText? d.labelsText).bind Json.Value.strings? = some d.labels
      ∧ ∃ after, ran.2.tree.read w.workDir path = .ok after
        ∧ (Text.lines after = Text.lines before ++ [d.entryBytes] ↔ Text.IsEnded before)
        ∧ (¬Text.IsEnded before → ∃ earlier last, last ≠ []
            ∧ Text.lines before = earlier ++ [last]
            ∧ Text.lines after = earlier ++ [last ++ d.entryBytes])
        ∧ Text.IsEnded after
        ∧ ∀ later : List Decision,
            let ran' := (later.mapM (writeOutput World.host path)).run ran.2
            Text.lines (ran'.2.tree.held w.workDir path)
              = Text.lines after ++ later.map entryBytes := by
  intro before ran
  obtain ⟨tree, hrun, hagain, hheld⟩ :=
    World.run_appendFile_of_canWrite hwrite (Text.bytes d.outputLine)
  have hran : ran = (.ok (), { w with tree }) := hrun
  have hafter : tree.held w.workDir path = before ++ (d.entryBytes ++ [10]) := by
    rw [hheld, bytes_outputLine]
  have hended : Text.IsEnded (before ++ (d.entryBytes ++ [10])) := by
    rw [← List.append_assoc]
    exact Text.isEnded_concat _
  refine ⟨by rw [hran], ?_, before ++ (d.entryBytes ++ [10]), ?_,
    Text.lines_append_entry_iff d.lineFeed_not_mem_entryBytes, ?_, hended, ?_⟩
  · rw [labelsText, Json.Value.ofText?_compact]
    exact Json.Value.strings?_ofStrings d.labels
  · rw [hran, ← hafter]
    exact FileTree.read_eq_held (by rw [hafter]; simp)
  · intro hopen
    obtain ⟨earlier, last, hne, hbefore, htaken⟩ := Text.exists_lines_of_open hopen
    exact ⟨earlier, last, hne, hbefore, htaken d.entryBytes d.lineFeed_not_mem_entryBytes⟩
  · intro later
    have hlater : ∀ entry ∈ later.map entryBytes, 10 ∉ entry := by
      intro entry hentry
      obtain ⟨d', -, rfl⟩ := List.mem_map.mp hentry
      exact d'.lineFeed_not_mem_entryBytes
    have hlines := Text.lines_of_all_ended hlater
    rw [List.flatMap_map] at hlines
    dsimp only
    rw [hran, held_writeOutputs hagain later, hafter, Text.lines_append hended, hlines]

/-- An entry behind one that another step has written, and then another entry. -/
theorem writeOutput_adds_own_line_second :
    let w : World := { tree := .directory [("out", .file (Text.bytes "existing=1\n"))] }
    let d : Decision := ⟨["t-topology"], .longestPrefix⟩
    let ran := (writeOutput World.host "out" d).run w
    let ran' := ([Decision.empty .all].mapM (writeOutput World.host "out")).run ran.2
    w.CanWrite (some "out") ∧ Text.IsEnded (w.tree.held w.workDir "out")
      ∧ Text.lines (ran'.2.tree.held w.workDir "out") = [Text.bytes "existing=1",
        Text.bytes "labels=[\"t-topology\"]", Text.bytes "labels=[]"] := by
  intro w d ran ran'
  have hread : w.tree.read w.workDir "out" = .ok (Text.bytes "existing=1\n") := rfl
  have hwrite : w.CanWrite (some "out") := World.canWrite_of_read hread
  have hended : Text.IsEnded (w.tree.held w.workDir "out") := by decide +kernel
  obtain ⟨-, -, after, -, hown, -, -, hlater⟩ := writeOutput_adds_own_line d hwrite
  refine ⟨hwrite, hended, ?_⟩
  have hlines := hlater [.empty .all]
  dsimp only at hlines
  rw [hlines, hown.mpr hended]
  decide +kernel

/-- Another step has not ended its line. That line is changed, and none begins with `labels=`. -/
theorem writeOutput_joins_open_line :
    let w : World := { tree := .directory [("out", .file (Text.bytes "first=0\nexisting=1"))] }
    let d : Decision := ⟨["t-topology"], .longestPrefix⟩
    let before := w.tree.held w.workDir "out"
    let ran := (writeOutput World.host "out" d).run w
    let after := ran.2.tree.held w.workDir "out"
    ran.1 = .ok () ∧ Text.lines before = [Text.bytes "first=0", Text.bytes "existing=1"]
      ∧ Text.lines after
        = [Text.bytes "first=0", Text.bytes "existing=1labels=[\"t-topology\"]"]
      ∧ Text.lines after ≠ Text.lines before ++ [d.entryBytes] := by
  decide +kernel

end Decision

end PathLabels
