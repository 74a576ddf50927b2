import V91Core.Effect.Run
import V91Core.Python.Data
import V91Core.Python.Files

namespace V91Core.Recovery

open V91Core.Python V91Core.Effect

variable (rt : Runtime)

-- The chunks of the file are hashed one after the other.
def fileSha256 (fs : Files) (path : Path) : Except FileError PyStr := (fs.read path).map rt.sha256Hex

def verifyFile (fs : Files) (path : Path) (expectedSha256 : PyData) : Except FileError Bool :=
  match expectedSha256 with
  | .str expected =>
      if expected.length ≠ 64 then .ok false else (fileSha256 rt fs path).map fun sha256 => sha256 = expected
  | _ => .ok false

structure BackupResult where
  source : Path
  backupPath : Path
  sha256 : PyStr
  sizeBytes : Nat

section Names

variable (fs : Files) (backupDir : Path) (base : PyStr)

def plainName : PyStr := base ++ py ".bak"

def counterName (counter : Nat) : PyStr := base ++ py "." ++ natText counter ++ py ".bak"

theorem counterName_injective : Function.Injective (counterName base) := by
  intro m n h
  rw [counterName, counterName, List.append_assoc, List.append_assoc, List.append_assoc, List.append_assoc] at h
  exact natText_injective m n (List.append_cancel_right (List.append_cancel_left (List.append_cancel_left h)))

-- Only finitely many names are taken.
theorem exists_bound : ∃ bound, ∀ counter, bound ≤ counter →
    fs.pathExists (counterName base counter :: backupDir) = false := by
  have hinjective : Function.Injective fun counter => counterName base counter :: backupDir := fun m n h =>
    counterName_injective base (List.cons.inj h).1
  obtain ⟨bound, hbound⟩ := (fs.finite_paths.preimage hinjective.injOn).bddAbove
  refine ⟨bound + 1, fun counter hcounter => ?_⟩
  by_contra htaken
  rw [Bool.not_eq_false] at htaken
  have hle : counter ≤ bound := hbound htaken
  omega

-- `while os.path.exists(...): counter += 1`.
def nextCounter (counter : Nat) : Nat :=
  if fs.pathExists (counterName base counter :: backupDir) then nextCounter (counter + 1) else counter
termination_by (exists_bound fs backupDir base).choose - counter
decreasing_by
  next htaken =>
    have hbound := (exists_bound fs backupDir base).choose_spec counter
    rw [htaken] at hbound
    have hlt : counter < (exists_bound fs backupDir base).choose := by
      by_contra hge
      exact absurd (hbound (by omega)) (by decide)
    omega

-- The loop stops at the first counter whose name is free.
theorem nextCounter_spec (counter : Nat) : ∃ turns, nextCounter fs backupDir base counter = counter + turns ∧
    (∀ k < turns, fs.pathExists (counterName base (counter + k) :: backupDir) = true) ∧
    fs.pathExists (counterName base (counter + turns) :: backupDir) = false := by
  induction counter using nextCounter.induct fs backupDir base with
  | case1 counter htaken ih =>
      obtain ⟨turns, hnext, hbefore, hfree⟩ := ih
      rw [nextCounter, if_pos htaken]
      refine ⟨turns + 1, by omega, fun k hk => ?_, ?_⟩
      · cases k with
        | zero => exact htaken
        | succ k =>
            have hk' := hbefore k (by omega)
            rwa [Nat.add_assoc, Nat.add_comm 1 k] at hk'
      · rwa [Nat.add_assoc, Nat.add_comm 1 turns] at hfree
  | case2 counter hfree =>
      rw [nextCounter, if_neg hfree]
      exact ⟨0, rfl, fun k hk => absurd hk (by omega), by simpa using hfree⟩

def backupName : PyStr :=
  if fs.pathExists (plainName base :: backupDir) then counterName base (nextCounter fs backupDir base 1)
  else plainName base

theorem backupName_free : fs.pathExists (backupName fs backupDir base :: backupDir) = false := by
  unfold backupName
  split
  · obtain ⟨turns, hnext, -, hfree⟩ := nextCounter_spec fs backupDir base 1
    rw [hnext, hfree]
  · next hfree => simpa using hfree

end Names

def createBackup (fs : Files) (source backupDir : Path) : Except FileError BackupResult × Files :=
  if !fs.isFile source then (.error (.fileNotFound (some (py "Quelldatei fehlt: " ++ pathText source))), fs)
  else
    match fs.makedirs backupDir with
    | (.error e, fs) => (.error e, fs)
    | (.ok (), fs) =>
        let path := backupName fs backupDir (basename source) :: backupDir
        match fs.copy2 source path with
        | (.error e, fs) => (.error e, fs)
        | (.ok (), fs) => (do
            let sha256 ← fileSha256 rt fs path
            let content ← fs.read path
            .ok ⟨source, path, sha256, content.length⟩, fs)

def restoreBackup (fs : Files) (backupPath destination : Path) (expectedSha256 allowOverwrite : PyData) :
    Except FileError Bool × Files :=
  if !fs.isFile backupPath then (.error (.fileNotFound (some (py "Backup fehlt: " ++ pathText backupPath))), fs)
  else
    match verifyFile rt fs backupPath expectedSha256 with
    | .error e => (.error e, fs)
    | .ok false => (.ok false, fs)
    | .ok true =>
        if fs.pathExists destination && !allowOverwrite.truthy then
          (.error (.fileExists (some (py "Ziel existiert bereits: " ++ pathText destination ++
            py " (allow_overwrite=True noetig – " ++ py "keine stillschweigende Ueberschreibung)"))), fs)
        else
          match fs.makedirs (dirname destination) with
          | (.error e, fs) => (.error e, fs)
          | (.ok (), fs) =>
              match fs.copy2 backupPath destination with
              | (.error e, fs) => (.error e, fs)
              | (.ok (), fs) => (verifyFile rt fs destination expectedSha256, fs)

section Calls

variable (fs : Files)

theorem verifyFile_digest (path : Path) (content : Bytes) (h : fs.node? path = some (.file content)) :
    verifyFile rt fs path (.str (rt.sha256Hex content)) = .ok true := by
  have hlength : (rt.sha256Hex content).length = 64 := hexdigest_length _
  rw [verifyFile, fileSha256, (fs.read_eq_ok path content).mpr h, if_neg (not_not.mpr hlength)]
  exact congrArg Except.ok (decide_eq_true rfl)

-- The verdict depends on the content alone.
theorem verifyFile_congr (fs' : Files) (path path' : Path) (expected : PyData) (content : Bytes)
    (h : fs.node? path = some (.file content)) (h' : fs'.node? path' = some (.file content)) :
    verifyFile rt fs' path' expected = verifyFile rt fs path expected := by
  rw [← Files.read_eq_ok] at h h'
  cases expected with
  | str text => simp only [verifyFile, fileSha256, h, h']
  | _ => rfl

-- A backup is a new file with the content of the source. Everything that was there stays.
theorem createBackup_cases (source backupDir : Path) :
    (∃ e, (createBackup rt fs source backupDir).1 = .error e ∧
      Files.OnlyAdds backupDir fs (createBackup rt fs source backupDir).2) ∨
    ∃ content name fs', fs.node? source = some (.file content) ∧ fs.node? (name :: backupDir) = none ∧
      Files.OnlyAdds backupDir fs fs' ∧
      createBackup rt fs source backupDir =
        (.ok ⟨source, name :: backupDir, rt.sha256Hex content, content.length⟩,
          fs'.put (name :: backupDir) (.file content)) := by
  unfold createBackup
  cases hfile : fs.isFile source with
  | false => exact .inl ⟨_, rfl, fun q => .inl rfl⟩
  | true =>
      obtain ⟨content, hcontent⟩ := (fs.isFile_eq_true source).mp hfile
      have honly := fs.makedirs_onlyAdds backupDir
      rcases hmade : fs.makedirs backupDir with ⟨e | _, fs'⟩
      · rw [hmade] at honly
        exact .inl ⟨e, rfl, honly⟩
      · rw [hmade] at honly
        have hfree := backupName_free fs' backupDir (basename source)
        rw [Files.pathExists_eq_false] at hfree
        have hplain : fs'.isDir (backupName fs' backupDir (basename source) :: backupDir) = false := by
          rw [Files.isDir, hfree]
          rfl
        have hold : fs.node? (backupName fs' backupDir (basename source) :: backupDir) = none := by
          rcases honly (backupName fs' backupDir (basename source) :: backupDir) with hsame | ⟨-, hnone⟩
          · rw [← hsame, hfree]
          · exact hnone
        rcases fs'.copy2_cases source _ hplain with ⟨e, hcopy, -⟩ | ⟨content', name, dir, hpath, hsource, hcopy⟩
        · simp only [hcopy]
          exact .inl ⟨e, rfl, honly⟩
        · rw [honly.node? source _ hcontent] at hsource
          obtain rfl := Node.file.inj (Option.some.inj hsource)
          have hread := (Files.read_eq_ok _ _ content).mpr
            (fs'.node?_put_self (backupName fs' backupDir (basename source)) backupDir (.file content))
          simp only [hcopy]
          refine .inr ⟨content, _, fs', hcontent, hold, honly, ?_⟩
          rw [fileSha256, hread]
          rfl

theorem node?_makedirs (name : PyStr) (dir : Path) (fs' : Files) (honly : Files.OnlyAdds dir fs fs') :
    fs'.node? (name :: dir) = fs.node? (name :: dir) := by
  rcases honly (name :: dir) with hsame | ⟨hsuffix, -⟩
  · exact hsame
  · have hlength := hsuffix.length_le
    simp at hlength

-- A restore that does not return True leaves the files as they are, but for directories on
-- the way to the destination.
theorem restoreBackup_cases (backupPath destination : Path) (expected allowOverwrite : PyData)
    (hplain : fs.isDir destination = false) :
    ((restoreBackup rt fs backupPath destination expected allowOverwrite).1 ≠ .ok true ∧
      Files.OnlyAdds (dirname destination) fs (restoreBackup rt fs backupPath destination expected allowOverwrite).2) ∨
    ∃ content name dir fs', destination = name :: dir ∧ fs.node? backupPath = some (.file content) ∧
      Files.OnlyAdds dir fs fs' ∧
      restoreBackup rt fs backupPath destination expected allowOverwrite =
        (.ok true, fs'.put destination (.file content)) := by
  unfold restoreBackup
  cases hfile : fs.isFile backupPath with
  | false => exact .inl ⟨nofun, fun q => .inl rfl⟩
  | true =>
      obtain ⟨content, hcontent⟩ := (fs.isFile_eq_true backupPath).mp hfile
      rcases hverify : verifyFile rt fs backupPath expected with e | verified
      · exact .inl ⟨nofun, fun q => .inl rfl⟩
      · cases verified with
        | false => exact .inl ⟨nofun, fun q => .inl rfl⟩
        | true =>
            simp only [Bool.not_true, Bool.false_eq_true, if_false]
            split
            · exact .inl ⟨nofun, fun q => .inl rfl⟩
            · cases destination with
              | nil => cases hplain
              | cons name dir =>
                  have honly := fs.makedirs_onlyAdds dir
                  rcases hmade : fs.makedirs dir with ⟨e | _, fs'⟩
                  · rw [hmade] at honly
                    simp only [dirname, List.tail_cons, hmade]
                    exact .inl ⟨nofun, honly⟩
                  · rw [hmade] at honly
                    have hplain' : fs'.isDir (name :: dir) = false := by
                      rw [Files.isDir, node?_makedirs fs name dir fs' honly]
                      exact hplain
                    simp only [dirname, List.tail_cons, hmade]
                    rcases fs'.copy2_cases backupPath (name :: dir) hplain' with
                      ⟨e, hcopy, -⟩ | ⟨content', _, _, _, hsource, hcopy⟩
                    · simp only [hcopy]
                      exact .inl ⟨nofun, honly⟩
                    · rw [honly.node? backupPath _ hcontent] at hsource
                      obtain rfl := Node.file.inj (Option.some.inj hsource)
                      simp only [hcopy, verifyFile_congr rt fs _ backupPath (name :: dir) expected content hcontent
                        (fs'.node?_put_self name dir (.file content)), hverify]
                      exact .inr ⟨content, name, dir, fs', rfl, hcontent, honly, rfl⟩

-- The backup is restored where the destination is free or may be overwritten.
theorem restoreBackup_ok (backupPath : Path) (name : PyStr) (dir : Path) (content : Bytes) (allowOverwrite : PyData)
    (hbackup : fs.node? backupPath = some (.file content)) (hplain : fs.isDir (name :: dir) = false)
    (hother : backupPath ≠ name :: dir) (hclear : fs.Clear dir)
    (hallowed : fs.pathExists (name :: dir) = true → allowOverwrite.truthy = true) :
    ∃ fs', restoreBackup rt fs backupPath (name :: dir) (.str (rt.sha256Hex content)) allowOverwrite = (.ok true, fs') ∧
      fs'.node? (name :: dir) = some (.file content) := by
  have hfile := (fs.isFile_eq_true backupPath).mpr ⟨content, hbackup⟩
  have honly := fs.makedirs_onlyAdds dir
  obtain ⟨hok, hdir⟩ := fs.makedirs_ok dir hclear
  rcases hmade : fs.makedirs dir with ⟨out, fs'⟩
  rw [hmade] at hok hdir honly
  obtain rfl : out = .ok () := hok
  have hplain' : fs'.isDir (name :: dir) = false := by
    rw [Files.isDir, node?_makedirs fs name dir fs' honly]
    exact hplain
  have hcopy := fs'.copy2_file backupPath name dir content (honly.node? backupPath _ hbackup) hdir hplain' hother
  have hguard : (fs.pathExists (name :: dir) && !allowOverwrite.truthy) = false := by
    cases hexists : fs.pathExists (name :: dir) with
    | false => rfl
    | true => rw [hallowed hexists]; rfl
  have hput := fs'.node?_put_self name dir (.file content)
  refine ⟨fs'.put (name :: dir) (.file content), ?_, hput⟩
  simp only [restoreBackup, hfile, Bool.not_true, Bool.false_eq_true, if_false, dirname, List.tail_cons,
    verifyFile_digest rt fs backupPath content hbackup, hguard, hmade, hcopy,
    verifyFile_digest rt _ (name :: dir) content hput]

end Calls

section Runs

-- What happens one after the other. Between the calls other programs change files.
inductive Event where
  | createBackup (source backupDir : Path)
  | restoreBackup (backupPath destination : Path) (expectedSha256 allowOverwrite : PyData)
  | change (files : Files)

def step (fs : Files) : Event → Files
  | .createBackup source backupDir => (createBackup rt fs source backupDir).2
  | .restoreBackup backupPath destination expectedSha256 allowOverwrite =>
      (restoreBackup rt fs backupPath destination expectedSha256 allowOverwrite).2
  | .change files => files

-- A result that `create_backup` returns, and the bytes that the source had at that call.
def returned (fs : Files) : Event → Option (BackupResult × Bytes)
  | .createBackup source backupDir =>
      match (createBackup rt fs source backupDir).1, fs.read source with
      | .ok result, .ok content => some (result, content)
      | _, _ => none
  | _ => none

variable (dirs : Set Path)

-- No directory, and outside of the backup directories.
structure Destination (fs : Files) (destination : Path) : Prop where
  plain : fs.isDir destination = false
  outside : ∀ dir ∈ dirs, ¬ dir <:+ destination

-- Backups are made in the backup directories and restored outside of them, and nobody
-- else writes there.
def Permitted (fs : Files) : Event → Prop
  | .createBackup _ backupDir => backupDir ∈ dirs
  | .restoreBackup _ destination _ _ => Destination dirs fs destination
  | .change files => ∀ dir ∈ dirs, ∀ path, dir <:+ path → files.node? path = fs.node? path

structure Holds (fs : Files) (b : BackupResult × Bytes) : Prop where
  stored : fs.node? b.1.backupPath = some (.file b.2)
  digest : b.1.sha256 = rt.sha256Hex b.2
  inside : ∃ dir ∈ dirs, dir <:+ b.1.backupPath

theorem returned_holds (fs : Files) (e : Event) (b : BackupResult × Bytes) (hpermitted : Permitted dirs fs e)
    (hreturned : returned rt fs e = some b) : Holds rt dirs (step rt fs e) b := by
  cases e with
  | createBackup source backupDir =>
      rcases createBackup_cases rt fs source backupDir with ⟨e, herror, -⟩ |
        ⟨content, name, fs', hsource, -, -, hcreate⟩
      · rw [returned, herror] at hreturned
        cases hreturned
      · rw [returned, hcreate, (fs.read_eq_ok source content).mpr hsource] at hreturned
        obtain rfl := Option.some.inj hreturned
        refine ⟨?_, rfl, backupDir, hpermitted, List.suffix_cons name backupDir⟩
        rw [step, hcreate]
        exact fs'.node?_put_self name backupDir (.file content)
  | restoreBackup => cases hreturned
  | change => cases hreturned

theorem step_holds (fs : Files) (e : Event) (b : BackupResult × Bytes) (hpermitted : Permitted dirs fs e)
    (h : Holds rt dirs fs b) : Holds rt dirs (step rt fs e) b := by
  refine ⟨?_, h.digest, h.inside⟩
  have hstored := h.stored
  cases e with
  | createBackup source backupDir =>
      rcases createBackup_cases rt fs source backupDir with ⟨e, -, honly⟩ |
        ⟨content, name, fs', -, hnew, honly, hcreate⟩
      · exact honly.node? _ _ hstored
      · have hother : b.1.backupPath ≠ name :: backupDir := by
          intro hsame
          rw [hsame, hnew] at hstored
          cases hstored
        rw [step, hcreate]
        exact (fs'.node?_put_ne name backupDir _ _ hother).trans (honly.node? _ _ hstored)
  | restoreBackup backupPath destination expected allowOverwrite =>
      rcases restoreBackup_cases rt fs backupPath destination expected allowOverwrite hpermitted.plain with
        ⟨-, honly⟩ | ⟨content, name, dir, fs', rfl, -, honly, hrestore⟩
      · exact honly.node? _ _ hstored
      · have hother : b.1.backupPath ≠ name :: dir := by
          intro hsame
          obtain ⟨backupDir, hdir, hsuffix⟩ := h.inside
          rw [hsame] at hsuffix
          exact hpermitted.outside backupDir hdir hsuffix
        rw [step, hrestore]
        exact (fs'.node?_put_ne name dir _ _ hother).trans (honly.node? _ _ hstored)
  | change files =>
      obtain ⟨backupDir, hdir, hsuffix⟩ := h.inside
      rw [step, hpermitted backupDir hdir _ hsuffix]
      exact hstored

-- A restore that returns False or raises FileExistsError.
def Refused (out : Except FileError Bool) : Prop := out = .ok false ∨ ∃ msg, out = .error (.fileExists msg)

theorem restore_refused (fs : Files) (backupPath destination : Path) (expected allowOverwrite : PyData)
    (hplain : fs.isDir destination = false)
    (hrefused : Refused (restoreBackup rt fs backupPath destination expected allowOverwrite).1) :
    (restoreBackup rt fs backupPath destination expected allowOverwrite).2.node? destination =
      fs.node? destination := by
  rcases restoreBackup_cases rt fs backupPath destination expected allowOverwrite hplain with
    ⟨-, honly⟩ | ⟨content, name, dir, fs', -, -, -, hrestore⟩
  · cases destination with
    | nil => cases hplain
    | cons name dir => exact node?_makedirs fs name dir _ honly
  · rw [hrestore] at hrefused
    rcases hrefused with h | ⟨msg, h⟩
    · cases h
    · cases h

-- Every backup that was returned stays as it was, and can be restored. A refused restore
-- changes nothing at the destination, and the search for a free name ends.
theorem backups_never_lost (fs : Files) (events : List Event)
    (hpermitted : EachStep (step rt) (Permitted dirs) fs events) :
    let now := runFrom (step rt) fs events
    (∀ b ∈ collect (step rt) (returned rt) fs events,
      now.node? b.1.backupPath = some (.file b.2) ∧
      ∀ destination allowOverwrite, Destination dirs now destination → now.Clear (dirname destination) →
        (now.pathExists destination = true → allowOverwrite.truthy = true) →
        ∃ after, restoreBackup rt now b.1.backupPath destination (.str b.1.sha256) allowOverwrite = (.ok true, after) ∧
          after.node? destination = some (.file b.2)) ∧
    (∀ backupPath destination expected allowOverwrite, Destination dirs now destination →
      Refused (restoreBackup rt now backupPath destination expected allowOverwrite).1 →
      (restoreBackup rt now backupPath destination expected allowOverwrite).2.node? destination =
        now.node? destination) ∧
    ∀ backupDir base, ∃ turns, nextCounter now backupDir base 1 = 1 + turns ∧
      (∀ k < turns, now.pathExists (counterName base (1 + k) :: backupDir) = true) ∧
      now.pathExists (counterName base (1 + turns) :: backupDir) = false := by
  intro now
  refine ⟨fun b hb => ?_, ?_, ?_⟩
  · have hholds := collect_bound (Permitted dirs) (Holds rt dirs) (returned_holds rt dirs) (step_holds rt dirs) fs
      events hpermitted b hb
    refine ⟨hholds.stored, fun destination allowOverwrite hdestination hclear hallowed => ?_⟩
    cases destination with
    | nil => cases hdestination.plain
    | cons name dir =>
        have hother : b.1.backupPath ≠ name :: dir := by
          intro hsame
          obtain ⟨backupDir, hdir, hsuffix⟩ := hholds.inside
          rw [hsame] at hsuffix
          exact hdestination.outside backupDir hdir hsuffix
        rw [hholds.digest]
        exact restoreBackup_ok rt now b.1.backupPath name dir b.2 allowOverwrite hholds.stored hdestination.plain
          hother hclear hallowed
  · intro backupPath destination expected allowOverwrite hdestination hrefused
    exact restore_refused rt now backupPath destination expected allowOverwrite hdestination.plain hrefused
  · exact fun backupDir base => nextCounter_spec now backupDir base 1

end Runs

section Samples

def sampleRuntime : Runtime := ⟨fun _ => zeroDigest, fun _ => false, 1000⟩

def sampleFiles : Files := ⟨(∅ : AList fun _ : Path => Node).insert [py "ledger.jsonl"] (.file [1, 2])⟩

def sampleEvents : List Event :=
  [.createBackup [py "ledger.jsonl"] [py "backups"],
    .restoreBackup [py "ledger.jsonl.bak", py "backups"] [py "restored.jsonl"] (.str (hexdigest zeroDigest))
      (.bool false)]

theorem sample_backup_kept :
    (collect (step sampleRuntime) (returned sampleRuntime) sampleFiles sampleEvents).length = 1 ∧
    ∀ b ∈ collect (step sampleRuntime) (returned sampleRuntime) sampleFiles sampleEvents,
      (runFrom (step sampleRuntime) sampleFiles sampleEvents).node? b.1.backupPath = some (.file b.2) := by
  have hdestination : Destination ({[py "backups"]} : Set Path)
      (step sampleRuntime sampleFiles (.createBackup [py "ledger.jsonl"] [py "backups"])) [py "restored.jsonl"] := by
    refine ⟨by decide +kernel, fun dir hdir => ?_⟩
    rw [Set.mem_singleton_iff.mp hdir]
    decide
  have hpermitted : EachStep (step sampleRuntime) (Permitted {[py "backups"]}) sampleFiles sampleEvents :=
    ⟨Set.mem_singleton _, hdestination, trivial⟩
  refine ⟨by decide +kernel, fun b hb => ?_⟩
  exact ((backups_never_lost sampleRuntime {[py "backups"]} sampleFiles sampleEvents hpermitted).1 b hb).1

end Samples

end V91Core.Recovery
