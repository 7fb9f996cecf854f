import PathLabels.Proofs.Appending
import PathLabels.Proofs.Components
import PathLabels.Proofs.JsonText
import PathLabels.Proofs.Utf8
import PathLabels.StepOutput

/-!
# One line for a decision

The file of the step outputs is read line by line by whoever comes after, so a label that could end
a line could put an output of its own there. No label can: a line break in it is escaped, and the
byte that ends a line is part of no other character. So the lines that are added are the decisions
that were written, one each and in order, and every one of them gives the labels of its decision
back.
-/

namespace PathLabels

namespace Text

/-! ## The byte that ends a line -/

/-- The byte 10 stands in a text only where a line ends. -/
theorem lineFeed_mem_bytesOf_iff {s : List Char} : 10 ∈ bytesOf s ↔ '\n' ∈ s :=
  mem_bytesOf_iff (a := '\n') (by decide)

/-- Lines that are ended one by one are what their bytes are split into. -/
theorem splitOn_lines {lines : List (List UInt8)} (h : ∀ line ∈ lines, 10 ∉ line) :
    (lines.flatMap fun line => line ++ [10]).splitOn 10 = lines ++ [[]] :=
  splitOn_ended 10 h

end Text

namespace Decision

/-- No line ends among the labels of a decision. -/
theorem not_mem_labelsText (d : Decision) {c : Char} (hc : c.toNat < 0x20) :
    c ∉ d.labelsText.toList :=
  fun h => Nat.not_lt.mpr (Json.Value.le_toNat_of_mem_compact h) hc

theorem lineFeed_not_mem_bytes (d : Decision) : 10 ∉ Text.bytes ("labels=" ++ d.labelsText) := by
  rw [Text.bytes, Text.lineFeed_mem_bytesOf_iff, String.toList_append, List.mem_append, not_or]
  exact ⟨by decide, d.not_mem_labelsText (by decide)⟩

/--
**Every decision that is written adds one line**, from which its labels are read back.

Let any decisions be written one after the other to a file of any world. If the file can be written,
what it held stays as it was, and behind it stand the lines of the decisions in order. Every file
that is there can be written, and one that is not there if its directory is. The new bytes are split
at the ends of their lines into just these, so no label has ended one; and what stands behind
`labels=` is a JSON array of the labels, without a line feed or a carriage return. If the file
cannot be written, every write goes wrong and nothing is changed. This is so if the path leads to a
directory, or if its directory is not there.
-/
theorem writeOutput_adds_lines (w : World) (path : String) (decisions : List Decision) :
    let ran := (decisions.mapM (writeOutput World.host path)).run w
    let before := w.tree.held w.workDir path
    let added := decisions.flatMap fun d => Text.bytes ("labels=" ++ d.labelsText ++ "\n")
    (w.CanWrite (some path) →
        ran.1 = decisions.map (fun _ => .ok ())
          ∧ ran.2 = { w with tree := ran.2.tree }
          ∧ ran.2.tree.held w.workDir path = before ++ added)
      ∧ (∀ contents, w.tree.read w.workDir path = .ok contents →
          w.CanWrite (some path) ∧ before = contents)
      ∧ (∀ directory name, w.tree.Names w.workDir path directory name →
          w.tree.get? (directory ++ [name]) = none → w.CanWrite (some path) ∧ before = [])
      ∧ (¬w.CanWrite (some path) → ran.2 = w ∧ ∀ result ∈ ran.1, ∃ e, result = .error e)
      ∧ (∀ place entries, w.tree.resolve w.workDir path = .ok place →
          w.tree.get? place = some (.directory entries) → ¬w.CanWrite (some path))
      ∧ (∀ names name e, Path.components path.toList = names ++ [name] →
          w.tree.walk (FileTree.origin w.workDir path) names = .error e →
          ¬w.CanWrite (some path))
      ∧ added.splitOn 10
          = decisions.map (fun d => Text.bytes ("labels=" ++ d.labelsText)) ++ [[]]
      ∧ ∀ d ∈ decisions, '\n' ∉ d.labelsText.toList ∧ '\r' ∉ d.labelsText.toList
          ∧ (Json.Value.ofText? d.labelsText).bind Json.Value.strings? = some d.labels := by
  intro ran before added
  have hran : ran = ((decisions.map fun d => Text.bytes d.outputLine).mapM
      (World.host.appendFile path)).run w := by
    rw [List.mapM_map]
    rfl
  refine ⟨fun hwrite => ?_, fun contents hread => ⟨World.canWrite_of_read hread, ?_⟩,
    fun directory name => World.canWrite_of_absent, fun hwrite => ?_,
    fun place entries => World.not_canWrite_of_directory,
    fun names name e => World.not_canWrite_of_missing, ?_, fun d _ => ⟨?_, ?_, ?_⟩⟩
  · obtain ⟨tree, hrun, hheld⟩ := World.run_appendFiles_of_canWrite hwrite
      (decisions.map fun d => Text.bytes d.outputLine)
    rw [hran, hrun]
    refine ⟨List.map_map, rfl, hheld.trans ?_⟩
    rw [← List.flatMap_def]
    rfl
  · show w.tree.held w.workDir path = contents
    rw [FileTree.held, hread]
    rfl
  · obtain ⟨results, hrun, hresults⟩ := World.run_appendFiles_of_not_canWrite hwrite
      (decisions.map fun d => Text.bytes d.outputLine)
    rw [hran, hrun]
    exact ⟨rfl, hresults⟩
  · -- the only byte 10 of a line is the one at its end
    have hlines : ∀ line ∈ decisions.map (fun d => Text.bytes ("labels=" ++ d.labelsText)),
        10 ∉ line := by
      rintro _ hline
      obtain ⟨d, -, rfl⟩ := List.mem_map.mp hline
      exact d.lineFeed_not_mem_bytes
    rw [← Text.splitOn_lines hlines, List.flatMap_map]
    refine congrArg (List.splitOn 10) (List.flatMap_congr fun d _ => ?_)
    rw [Text.bytes_append]
    rfl
  · exact d.not_mem_labelsText (by decide)
  · exact d.not_mem_labelsText (by decide)
  · rw [labelsText, Json.Value.ofText?_compact]
    exact Json.Value.strings?_ofStrings d.labels

/-- A label that looks like the end of its line and an output of its own, and then no label. -/
theorem writeOutput_adds_lines_forged :
    let w : World := { tree := .directory [("out", .file (Text.bytes "existing=1\n"))] }
    let decisions : List Decision := [⟨["a\"]\\\nlabels=[\"b"], .all⟩, .empty .all]
    let ran := (decisions.mapM (writeOutput World.host "out")).run w
    w.CanWrite (some "out")
      ∧ ran.2.tree.held w.workDir "out" = Text.bytes
          "existing=1\nlabels=[\"a\\\"]\\\\\\nlabels=[\\\"b\"]\nlabels=[]\n"
      ∧ (Json.Value.ofText? "[\"a\\\"]\\\\\\nlabels=[\\\"b\"]").bind Json.Value.strings?
          = some ["a\"]\\\nlabels=[\"b"] := by
  intro w decisions ran
  obtain ⟨hwritten, hcan, -, -, -, -, -, hread⟩ := writeOutput_adds_lines w "out" decisions
  have hwrite : w.CanWrite (some "out") := (hcan _ rfl).1
  refine ⟨hwrite, ?_, ?_⟩
  · rw [(hwritten hwrite).2.2]
    decide +kernel
  · have hfirst := (hread _ List.mem_cons_self).2.2
    have htext : labelsText ⟨["a\"]\\\nlabels=[\"b"], .all⟩
        = "[\"a\\\"]\\\\\\nlabels=[\\\"b\"]" := by decide +kernel
    rw [htext] at hfirst
    exact hfirst

end Decision

end PathLabels
