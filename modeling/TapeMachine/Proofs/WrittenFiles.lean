import TapeMachine.Proofs.Folders
import TapeMachine.Proofs.JobResults
import TapeMachine.Proofs.WrittenTexts

/-!
# Files that are written

A file that is written has what was written in it, and nothing else on the disk is changed.  A text
in plain lines is read from it as it was.

* `Disk.write_of_target`, `grows_put_of_target`: the disk afterwards.
* `Disk.read_of_target`, `read_put_of_target`: the file is read by the same path.
* `Disk.source_of_inLines`: and its text is the text that was written.
-/

namespace TapeMachine

namespace Disk

variable {d : Disk} {p : Place} {path : String} {bytes old : List UInt8}

theorem write_of_target (h : d.target path = .ok (p, old)) (bytes : List UInt8) :
    d.write path bytes = .ok (d.put p (.file bytes)) := by
  rw [write, h]
  rfl

theorem grows_put_of_target (h : d.target path = .ok (p, old)) (bytes : List UInt8) :
    Grows (· = p) d (d.put p (.file bytes)) := by
  have hp := ne_nil_of_target h
  obtain ⟨_, _, _, _, _, _, _, hf, _⟩ := target_eq_ok_iff.1 h
  refine ⟨rfl, fun q hq => ?_, fun q => ?_, fun q hq => ?_⟩
  · rw [node?_put d hp, if_neg hq]
  · rw [node?_put d hp]
    split
    · next h =>
      subst h
      exact ⟨nofun, fun h => absurd h hf⟩
    · exact Iff.rfl
  · rw [node?_put d hp] at hq
    split at hq
    · cases hq
    · exact hq

theorem read_of_target (h : d.target path = .ok (p, old))
    (hn : d.node? p = some (.file bytes)) : d.read path = .ok bytes := by
  obtain ⟨hnul, _⟩ := target_eq_ok_iff.1 h
  refine named_eq_ok_iff.2 ⟨hnul, ?_⟩
  rw [find_of_target h hn]
  simp only [hn]

/-- **A file that is read** can be written, if its path ends with a name of its own. -/
theorem target_of_read {names : List String} {name : String} (h : d.read path = .ok bytes)
    (hslash : Path.endsInSlash path = false) (hnames : Path.names path = names ++ [name])
    (hh : name ≠ Path.here) (ha : name ≠ Path.above) :
    ∃ p, d.find path = .ok p ∧ d.target path = .ok (p, bytes) := by
  obtain ⟨hnul, h⟩ := named_eq_ok_iff.1 h
  cases hfind : d.find path with
  | error cause =>
    rw [hfind] at h
    cases h
  | ok p =>
    rw [hfind] at h
    dsimp only at h
    obtain ⟨_, hl, hw⟩ := find_eq_ok_iff.1 hfind
    have hway : way path = names ++ [name] := by
      rw [way, hslash, if_neg Bool.false_ne_true, hnames]
    rw [hway, walk_append] at hw
    obtain ⟨folder, hfolder, hw⟩ := bind_eq_ok_iff.1 hw
    have hf := node?_of_walk_cons hw
    rw [walk_cons_of_ne hf hh ha] at hw
    split at hw
    · cases hw
    · cases hw
    · next node hlook =>
      obtain ⟨hle, hnode⟩ := look_eq_ok_iff.1 hlook
      cases hw
      rw [hnode] at h
      cases node with
      | folder => cases h
      | file bytes' =>
        cases h
        have hs : d.spot path = .ok (.named folder name) :=
          spot_eq_named_iff.2 ⟨hl, by rw [hnames, List.getLast?_concat],
            by rw [hnames, List.dropLast_concat, hfolder], hf, hh, ha⟩
        have hfile : d.node? (folder ++ [name]) ≠ some .folder := by
          rw [hnode]
          intro hn
          cases hn
        exact ⟨_, rfl, target_eq_ok_iff.2 ⟨hnul, hslash, folder, name, hs, hle, rfl,
          hfile, by rw [content, hnode]⟩⟩

theorem exists_of_read (h : d.read path = .ok bytes) : d.exists? path = true := by
  obtain ⟨hnul, h⟩ := named_eq_ok_iff.1 h
  rw [exists?, nodeAt?, hnul, if_neg Bool.false_ne_true]
  cases hf : d.find path with
  | error cause =>
    rw [hf] at h
    cases h
  | ok p =>
    rw [hf] at h
    dsimp only at h ⊢
    cases hn : d.node? p with
    | none =>
      rw [hn] at h
      cases h
    | some node => rfl

/-- **A file that was written is read** by the path that it was written by. -/
theorem read_put_of_target (h : d.target path = .ok (p, old)) (bytes : List UInt8) :
    (d.put p (.file bytes)).read path = .ok bytes := by
  have ht := (grows_put_of_target h bytes).target h
  refine read_of_target ht ?_
  rw [node?_put d (ne_nil_of_target h), if_pos rfl]

theorem source_of_inLines {text : String} (hc : ∀ c ∈ text.toList, Json.InLines c)
    (h : d.read path = .ok (Text.encodeUtf8 text)) : d.source path = .ok text := by
  have hascii : ∀ c ∈ text.toList, c.toNat < 0x80 := fun c hmem => Json.InLines.lt (hc c hmem)
  have hreturn : '\r' ∉ text.toList := fun hmem => absurd (hc _ hmem) (by decide)
  rw [source, h]
  simp only [Text.decodeUtf8_encodeUtf8 hascii, Text.normalizeNewlines_of_notMem hreturn,
    String.ofList_toList]

end Disk

theorem Desk.perform_writeText_of_target {d : Desk} {path : String} {p : Place} {old : List UInt8}
    (h : d.disk.target path = .ok (p, old)) (text : String) :
    d.perform (Job.writeText path text) =
      (.ok (), { d with disk := d.disk.put p (.file (Text.encodeUtf8 text)) }) := by
  have hget : d.perform get = (.ok d, d) := rfl
  rw [Job.writeText, Job.changeDisk, Job.onDisk, perform_bind_of_ok hget]
  dsimp only
  rw [Disk.write_of_target h]
  rfl

theorem Desk.perform_makeFolders (d : Desk) (path : String) :
    d.perform (Job.makeFolders path) =
      ((d.disk.makeFolders path).2.mapError .disk,
        { d with disk := (d.disk.makeFolders path).1 }) := by
  have hget : d.perform get = (.ok d, d) := rfl
  rw [Job.makeFolders, Job.onDisk, perform_bind_of_ok hget]
  dsimp only
  cases (d.disk.makeFolders path).2 <;> rfl

theorem Desk.of_perform_makeFolders {d d' : Desk} {path : String} {u : Unit}
    (h : d.perform (Job.makeFolders path) = (.ok u, d')) :
    ∃ disk, d.disk.makeFolders path = (disk, .ok ()) ∧ d' = { d with disk } := by
  rw [perform_makeFolders] at h
  rcases hm : d.disk.makeFolders path with ⟨disk, result⟩
  rw [hm] at h
  obtain ⟨hr, rfl⟩ := Prod.mk.inj h
  obtain rfl : result = .ok () := mapError_eq_ok_iff.1 hr
  exact ⟨disk, rfl, rfl⟩

end TapeMachine
