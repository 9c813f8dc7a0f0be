import Mathlib.Data.List.Basic
import TapeMachine.Batch
import TapeMachine.Proofs.LogLines
import TapeMachine.Proofs.Reading

/-!
# Batches and single programs

No program of a batch sees anything of those before it: runs change no file, and records go to the
files of the log, which no path of the batch has to do with.  So the batch gives the records that
its programs give one by one.

* `Batch.single`: what one program gives by itself; `gives_entry`.
* `Keeping`: what is kept of records; `Keeping.of_none`, `Keeping.of_shelved`.
* `Keeping.gives_runFrom`, `Keeping.gives_run_of_tail`: a batch, whatever is kept of it.
* `run_eq_singles`: the batch, without a log and with one.
* `run_ne_singles`: a path that leads through a file of the log gives two different records.
-/

namespace TapeMachine.Batch

variable {plan : Plan} {path text : String} {read : SymbolReader} {log : Option RunLog}
  {shelf : Place → Prop} {keep : Disk → RunRecord → Disk}

/-! ### Single programs -/

/-- What a program gives by itself: the record of its run, or that of the fault in the way of it. -/
def single (d : Desk) (plan : Plan) (path : String) : RunRecord :=
  match (d.perform (Program.simulate path { plan with verbose := false })).1 with
  | .ok r => r
  | .error fault => .ofUnreadable path fault.message d.clock

theorem single_eq (d : Desk) (plan : Plan) (path : String) :
    single d plan path =
      match plan.outcome d.disk d.clock path with
      | .ok r => r
      | .error fault => .ofUnreadable path fault.message d.clock := by
  obtain ⟨events, he⟩ := perform_simulate_unwatched d plan path
  rw [single, he]

theorem single_congr {d d' : Desk} (hclock : d'.clock = d.clock)
    (hread : d'.disk.read path = d.disk.read path) : single d' plan path = single d plan path := by
  rw [single_eq, single_eq, hclock, plan.outcome_congr d.clock hread]

/-- **A program of a batch** gives what it gives by itself. -/
theorem gives_entry {d : Desk} (hk : plan.kind.resolve = .ok read) (ht : plan.tape = .str text)
    (hp : d.disk.Legible path) : d.Gives (entry path plan) (single d plan path) d := by
  intro events
  obtain ⟨events', he⟩ := perform_simulate_unwatched { d with events } plan path
  refine ⟨events', ?_⟩
  rw [entry, Desk.perform_rescue, he, single_eq]
  dsimp only
  cases ho : plan.outcome d.disk d.clock path with
  | ok r => rfl
  | error fault =>
    have hu : fault.isUnreadable = true := isUnreadable_of_outcome hp hk ht ho
    simp only [hu, if_true]
    rfl

theorem onlyShows_remark (r : RunRecord) (maxSteps : Int) :
    Job.OnlyShows ((remark? r maxSteps).forM Job.console) := by
  cases remark? r maxSteps with
  | none => exact fun d => ⟨d.events, rfl⟩
  | some text => exact Job.onlyShows_console text

/-! ### What is kept of records -/

/-- What the log does to the disk with records, as long as only files on the shelf grow. -/
structure Keeping (log : Option RunLog) (shelf : Place → Prop) (d : Disk)
    (keep : Disk → RunRecord → Disk) : Prop where
  grows : ∀ {d'}, Disk.Grows shelf d d' → ∀ r, Disk.Grows shelf d' (keep d' r)
  gives : ∀ {d' : Desk}, Disk.Grows shelf d d'.disk → ∀ r,
    d'.Gives (log.forM fun log => log.record r.toJson) () { d' with disk := keep d'.disk r }

theorem Keeping.of_none (d : Disk) : Keeping none (fun _ => False) d fun d' _ => d' where
  grows _ _ := .refl _ _
  gives {d'} _ _ := .pure d' ()

theorem Keeping.of_shelved {log : RunLog} {d : Disk} {place : Option Outcome → Place}
    (h : log.Shelved d place) :
    Keeping (some log) (fun p => ∃ w, p = place w) d (RunLog.shelve place) where
  grows g r := (h.of_grows g).grows_shelve r
  gives g r := RunLog.gives_record (h.of_grows g) r

/-! ### Batches -/

theorem Keeping.gives_runOne_of_legible {d d' : Desk} (hkeep : Keeping log shelf d.disk keep)
    (hk : plan.kind.resolve = .ok read) (ht : plan.tape = .str text) (hp : d'.disk.Legible path)
    (hg : Disk.Grows shelf d.disk d'.disk) :
    d'.Gives (runOne path plan log) (single d' plan path)
      { d' with disk := keep d'.disk (single d' plan path) } :=
  (gives_entry hk ht hp).bind (.bind (.of_shows (onlyShows_remark _ _) d')
    (.bind (hkeep.gives hg (single d' plan path)) (.pure _ _)))

theorem Keeping.gives_runOne {d d' : Desk} (hkeep : Keeping log shelf d.disk keep)
    (hk : plan.kind.resolve = .ok read) (ht : plan.tape = .str text) (hp : d.disk.Legible path)
    (ha : ∀ p, shelf p → d.disk.Avoids path p) (hg : Disk.Grows shelf d.disk d'.disk)
    (hc : d'.clock = d.clock) :
    d'.Gives (runOne path plan log) (single d plan path)
      { d' with disk := keep d'.disk (single d plan path) } := by
  have hread : d'.disk.read path = d.disk.read path := hg.read ha
  have hp' : d'.disk.Legible path := ⟨hp.noNul, fun bytes h => hp.decoded bytes (hread ▸ h)⟩
  have hone := hkeep.gives_runOne_of_legible hk ht hp' hg
  rw [single_congr hc hread] at hone
  exact hone

/-- **A batch gives what its programs give by themselves**, and keeps that in order. -/
theorem Keeping.gives_runFrom {d d' : Desk} (hkeep : Keeping log shelf d.disk keep)
    (hk : plan.kind.resolve = .ok read) (ht : plan.tape = .str text) {paths : List String}
    (hp : ∀ path ∈ paths, d.disk.Legible path)
    (ha : ∀ path ∈ paths, ∀ p, shelf p → d.disk.Avoids path p)
    (hg : Disk.Grows shelf d.disk d'.disk) (hc : d'.clock = d.clock) (done total : Nat) :
    d'.Gives (runFrom done total plan log paths) (paths.map (single d plan))
      { d' with disk := (paths.map (single d plan)).foldl keep d'.disk } := by
  -- by induction on the paths: only files on the shelf have grown when it is the next one's turn
  induction paths generalizing done d' with
  | nil => exact .pure d' []
  | cons path paths ih =>
    obtain ⟨hpath, hpaths⟩ := List.forall_mem_cons.1 hp
    obtain ⟨hapath, hapaths⟩ := List.forall_mem_cons.1 ha
    have hone := hkeep.gives_runOne hk ht hpath hapath hg hc
    refine hone.bind (.bind (.of_shows (Job.onlyShows_emit _) _)
      (.bind (ih hpaths hapaths ?_ ?_ (done + 1)) (.pure _ _)))
    · exact hg.trans (hkeep.grows hg (single d plan path))
    · exact hc

/-- The first program of a batch may have to do with the files that grow: none has grown yet. -/
theorem Keeping.gives_runFrom_of_tail {d : Desk} (hkeep : Keeping log shelf d.disk keep)
    (hk : plan.kind.resolve = .ok read) (ht : plan.tape = .str text) {paths : List String}
    (hp : ∀ path ∈ paths, d.disk.Legible path)
    (ha : ∀ path ∈ paths.tail, ∀ p, shelf p → d.disk.Avoids path p) (done total : Nat) :
    d.Gives (runFrom done total plan log paths) (paths.map (single d plan))
      { d with disk := (paths.map (single d plan)).foldl keep d.disk } := by
  cases paths with
  | nil => exact .pure d []
  | cons path paths =>
    obtain ⟨hpath, hpaths⟩ := List.forall_mem_cons.1 hp
    have hone := hkeep.gives_runOne_of_legible hk ht hpath (.refl shelf d.disk)
    have hg := hkeep.grows (.refl shelf d.disk) (single d plan path)
    have hclock : { d with disk := keep d.disk (single d plan path) }.clock = d.clock := rfl
    have hrest := hkeep.gives_runFrom hk ht hpaths ha hg hclock (done + 1) total
    exact hone.bind (.bind (.of_shows (Job.onlyShows_emit _) _) (.bind hrest (.pure _ _)))

theorem Keeping.gives_run_of_tail {d : Desk} (log : Option RunLog)
    (hkeep : Keeping (log.map fun log => log.turned d.clock) shelf d.disk keep)
    (hk : plan.kind.resolve = .ok read) (ht : plan.tape = .str text) {paths : List String}
    (hp : ∀ path ∈ paths, d.disk.Legible path)
    (ha : ∀ path ∈ paths.tail, ∀ p, shelf p → d.disk.Avoids path p) :
    d.Gives (run paths plan log)
      (paths.map (single d plan), log.map fun log => log.turned d.clock)
      { d with disk := (paths.map (single d plan)).foldl keep d.disk } := by
  have hturn : d.Gives (log.mapM RunLog.rotate) (log.map fun log => log.turned d.clock) d := by
    cases log with
    | none => exact .pure d none
    | some log => exact .map (RunLog.gives_rotate d log)
  have hrecords := hkeep.gives_runFrom_of_tail hk ht hp ha 0 paths.length
  exact .bind (.of_shows (Job.onlyShows_console _) d) (hturn.bind (hrecords.bind
    (.bind (.of_shows (Job.onlyShows_console _) _) (.pure _ _))))

theorem Keeping.gives_run {d : Desk} (log : Option RunLog)
    (hkeep : Keeping (log.map fun log => log.turned d.clock) shelf d.disk keep)
    (hk : plan.kind.resolve = .ok read) (ht : plan.tape = .str text) {paths : List String}
    (hp : ∀ path ∈ paths, d.disk.Legible path)
    (ha : ∀ path ∈ paths, ∀ p, shelf p → d.disk.Avoids path p) :
    d.Gives (run paths plan log)
      (paths.map (single d plan), log.map fun log => log.turned d.clock)
      { d with disk := (paths.map (single d plan)).foldl keep d.disk } :=
  gives_run_of_tail log hkeep hk ht hp fun path hpath => ha path (List.mem_of_mem_tail hpath)

/-- **A batch is the list of its single programs**, and a log gets their records, each in the main
file and in the file of its outcome, in lines that are read back as the records.  A program has a
record of its run or cannot be read. -/
theorem run_eq_singles (d : Desk) (plan : Plan) (paths : List String)
    (hk : plan.kind.resolve = .ok read) (ht : plan.tape = .str text)
    (hp : ∀ path ∈ paths, d.disk.Legible path) :
    (∀ path ∈ paths, ∀ fault,
      (d.perform (Program.simulate path { plan with verbose := false })).1 = .error fault →
        fault.isUnreadable = true) ∧
    (∃ events, d.perform (run paths plan none) =
      (.ok (paths.map (single d plan), none), { d with events })) ∧
    ∀ (log : RunLog) (place : Option Outcome → Place),
      (log.turned d.clock).Shelved d.disk place → (∀ o, place none ≠ place (some o)) →
      (∀ path ∈ paths, ∀ w, d.disk.Avoids path (place w)) →
      ∃ disk events,
        d.perform (run paths plan (some log)) =
          (.ok (paths.map (single d plan), some (log.turned d.clock)), { d with disk, events }) ∧
        disk.work = d.disk.work ∧
        (∀ w, disk.node? (place w) =
          RunLog.grown d.disk (place w) (RunLog.share w (paths.map (single d plan)))) ∧
        (∀ limit nesting, (∀ path ∈ paths, (single d plan path).toJson.Fits limit nesting) →
          ∀ w, RunLog.readLines limit nesting
              (RunRecord.bytes (RunLog.share w (paths.map (single d plan)))) =
            some ((RunLog.share w (paths.map (single d plan))).map RunRecord.toJson)) ∧
        ∀ p, (∀ w, p ≠ place w) → disk.node? p = d.disk.node? p := by
  refine ⟨?_, ?_, ?_⟩
  · intro path hpath fault hf
    obtain ⟨events, he⟩ := perform_simulate_unwatched d plan path
    rw [he] at hf
    exact isUnreadable_of_outcome (hp path hpath) hk ht hf
  · have hnone (path : String) (_ : path ∈ paths) (p : Place) (hs : False) :
        d.disk.Avoids path p := hs.elim
    have hrun := Keeping.gives_run none (.of_none d.disk) hk ht hp hnone
    rw [List.foldl_fixed] at hrun
    exact hrun d.events
  · intro log place hs hmain ha
    have hsome (path : String) (hpath : path ∈ paths) (p : Place) (hw : ∃ w, p = place w) :
        d.disk.Avoids path p := by
      obtain ⟨w, rfl⟩ := hw
      exact ha path hpath w
    obtain ⟨events, he⟩ := Keeping.gives_run (some log) (.of_shelved hs) hk ht hp hsome d.events
    have hg := RunLog.grows_foldl_shelve hs (paths.map (single d plan))
    refine ⟨_, events, he, hg.work, ?_, ?_, ?_⟩
    · exact RunLog.node?_foldl_shelve hs (hs.injective rfl hmain) _
    · intro limit nesting hfits w
      have hrecords : ∀ r ∈ paths.map (single d plan), r.toJson.Fits limit nesting :=
        List.forall_mem_map.2 hfits
      exact RunRecord.readLines_bytes fun r hr => hrecords r (List.mem_of_mem_filter hr)
    · intro p hne
      exact hg.elsewhere p fun ⟨w, hw⟩ => hne w hw

/-! ### A desk with a folder for logs -/

def programText : String := "(0, None) -> (1, true, Right) (1, None) -> (1, None, Right)"

/-- A working folder with a program and an empty folder for logs. -/
def writableDesk : Desk where
  disk := ⟨[(["work"], .folder), (["work", "logs"], .folder),
    (["work", "one.tm"], .file (Text.encodeUtf8 programText))], ["work"]⟩
  clock := ⟨2024, 2, 29, 12, 34, 56, 0⟩
  answers := []
  events := #[]
  nesting := Desk.usualNesting
  nesting_pos := Desk.usualNesting_pos

def staleLog : RunLog := ⟨"logs/", "turing_", "2024-02-28"⟩

def logPlace (w : Option Outcome) : Place :=
  "work" :: Path.names ((staleLog.turned writableDesk.clock).fileOf w)

theorem shelved_logPlace :
    (staleLog.turned writableDesk.clock).Shelved writableDesk.disk logPlace := by
  rintro (_ | _ | _ | _) <;> exact ⟨[], by decide +kernel⟩

theorem logPlace_none_ne (o : Outcome) : logPlace none ≠ logPlace (some o) := by
  cases o <;> decide +kernel

instance (d : Disk) (path : String) (p : Place) : Decidable (d.Avoids path p) :=
  inferInstanceAs (Decidable (_ ∧ (_ → _)))

/-- One program is there, the other is not. -/
theorem run_eq_singles_two :
    (writableDesk.perform (run ["one.tm", "two.tm", "one.tm"] {} none)).1.toOption =
      some (["one.tm", "two.tm", "one.tm"].map (single writableDesk {}), none) ∧
    ∃ disk events one two,
      writableDesk.perform (run ["one.tm", "two.tm", "one.tm"] {} (some staleLog)) =
        (.ok ([one, two, one], some (staleLog.turned writableDesk.clock)),
          { writableDesk with disk, events }) ∧
      one.halted = true ∧ two.error = some "[Errno 2] No such file or directory: 'two.tm'" ∧
      disk.node? (logPlace (some .halting)) = some (.file (RunRecord.bytes [one, one])) ∧
      RunLog.readLines 1 2 (RunRecord.bytes [one, one]) = some [one.toJson, one.toJson] := by
  have hone : writableDesk.disk.Legible "one.tm" :=
    .of_text (Text.encodeUtf8 programText) programText (by decide) (by decide +kernel)
      (by decide +kernel)
  have htwo : writableDesk.disk.Legible "two.tm" :=
    .of_error (.system .missing "two.tm") (by decide) (by decide +kernel)
  have hp : ∀ path ∈ ["one.tm", "two.tm", "one.tm"], writableDesk.disk.Legible path := by
    simp [hone, htwo]
  have ha : ∀ path ∈ ["one.tm", "two.tm", "one.tm"], ∀ w,
      writableDesk.disk.Avoids path (logPlace w) := by
    intro path hpath w
    revert path
    rcases w with _ | _ | _ | _ <;> decide +kernel
  have hk : (default : KindSpec).resolve = .ok SymbolKind.truth.read := rfl
  obtain ⟨_, ⟨_, hrun⟩, hlog⟩ := run_eq_singles writableDesk {} _ hk rfl hp
  obtain ⟨disk, events, he, _, hfiles, hlines, _⟩ :=
    hlog staleLog logPlace shelved_logPlace logPlace_none_ne ha
  have htakes : RunLog.takes (some .halting) (single writableDesk {} "one.tm") = true := by
    decide +kernel
  have herror : (single writableDesk {} "two.tm").error =
      some "[Errno 2] No such file or directory: 'two.tm'" := by
    decide +kernel
  have htakes' : RunLog.takes (some .halting) (single writableDesk {} "two.tm") = false := by
    simp [RunLog.takes, herror]
  have hshare : RunLog.share (some .halting)
      (["one.tm", "two.tm", "one.tm"].map (single writableDesk {})) =
        [single writableDesk {} "one.tm", single writableDesk {} "one.tm"] := by
    simp [RunLog.share, htakes, htakes']
  have hcontent : writableDesk.disk.content (logPlace (some .halting)) = [] := by decide +kernel
  have hfits : ∀ path ∈ ["one.tm", "two.tm", "one.tm"],
      (single writableDesk {} path).toJson.Fits 1 2 := by
    intro path hpath
    refine RunRecord.fits_toJson (fun n hn => ?_) (fun a ha => ?_)
    · have hcount : ∀ path ∈ ["one.tm", "two.tm", "one.tm"],
          ∀ n ∈ (single writableDesk {} path).steps, n = 1 := by
        decide +kernel
      rw [hcount path hpath n hn]
      decide
    · have hstate : ∀ path ∈ ["one.tm", "two.tm", "one.tm"],
          ∀ a ∈ (single writableDesk {} path).finalState, a = .number 1 := by
        decide +kernel
      rw [hstate path hpath a ha]
      exact .int (by decide)
  have hread := hlines 1 2 hfits (some .halting)
  rw [hshare] at hread
  refine ⟨by rw [hrun]; rfl, disk, events, single writableDesk {} "one.tm",
    single writableDesk {} "two.tm", he, ?_, herror, ?_, hread⟩
  · simp only [RunLog.takes, Bool.and_eq_true] at htakes
    exact htakes.2
  · rw [hfiles, hshare, RunLog.grown, if_neg (List.cons_ne_nil _ _), hcontent, List.nil_append]

/-- A path through the file that the log is about to make: it names none of the files, but what
cannot be read of it is another thing once the file is there. -/
def deepPath : String := "logs/turing_2024-02-29.jsonl/one.tm"

/-- **Not to name the files of the log is not enough.** -/
theorem run_ne_singles :
    ¬ ∀ (d : Desk) (plan : Plan) (paths : List String) (kind : SymbolKind) (text : String)
        (log : RunLog) (place : Option Outcome → Place),
      plan.kind.resolve = .ok kind.read → plan.tape = .str text →
      (∀ path ∈ paths, d.disk.Legible path) →
      (log.turned d.clock).Shelved d.disk place → (∀ o, place none ≠ place (some o)) →
      (∀ path ∈ paths, ∀ w, ¬ d.disk.Names path (place w)) →
      (d.perform (run paths plan (some log))).1.toOption.map Prod.fst =
        some (paths.map (single d plan)) := by
  intro h
  have hread : writableDesk.disk.read deepPath = .error (.system .missing deepPath) := by
    decide +kernel
  have hlegible : writableDesk.disk.Legible deepPath := .of_error _ (by decide) hread
  have htarget : writableDesk.disk.target deepPath = .error (.system .missing deepPath) := by
    decide +kernel
  have hfind : writableDesk.disk.find deepPath = .error .missing := by decide +kernel
  have hnames (w : Option Outcome) : ¬ writableDesk.disk.Names deepPath (logPlace w) := by
    rintro (hf | ⟨old, ht⟩)
    · rw [hfind] at hf
      cases hf
    · rw [htarget] at ht
      cases ht
  have hsame := h writableDesk {} [deepPath, deepPath] .truth "" staleLog logPlace rfl rfl
    (by simpa using hlegible) shelved_logPlace logPlace_none_ne (by simpa using hnames)
  exact absurd hsame (by decide +kernel)

end TapeMachine.Batch
