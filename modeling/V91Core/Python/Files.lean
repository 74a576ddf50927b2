import V91Core.Python.Runtime
import Mathlib.Data.List.AList

namespace V91Core.Python

-- The components of a path in normal form, the last one first: the directory of
-- `name :: dir` is `dir`, and `[]` is the root.
abbrev Path := List PyStr

def pathText : Path → PyStr
  | [] => [cp '/']
  | path => path.reverse.flatMap (cp '/' :: ·)

-- `os.path.basename` and `os.path.dirname`.
def basename (path : Path) : PyStr := path.headD []

def dirname (path : Path) : Path := path.tail

inductive Node where
  | file (content : Bytes)
  | dir
deriving DecidableEq

-- Only the program gives a message.
inductive FileError where
  | fileNotFound (msg : Option PyStr)
  | fileExists (msg : Option PyStr)
  | isADirectory
  | notADirectory
  | sameFile
deriving DecidableEq

structure Files where
  nodes : AList fun _ : Path => Node

namespace Files

def node? (fs : Files) : Path → Option Node
  | [] => some .dir
  | name :: dir => fs.nodes.lookup (name :: dir)

-- `os.path.exists`, `os.path.isfile` and `os.path.isdir`.
def pathExists (fs : Files) (path : Path) : Bool := (fs.node? path).isSome

def isFile (fs : Files) (path : Path) : Bool :=
  match fs.node? path with
  | some (.file _) => true
  | _ => false

def isDir (fs : Files) (path : Path) : Bool := fs.node? path = some .dir

def put (fs : Files) (path : Path) (node : Node) : Files := ⟨fs.nodes.insert path node⟩

def read (fs : Files) (path : Path) : Except FileError Bytes :=
  match fs.node? path with
  | some (.file content) => .ok content
  | some .dir => .error .isADirectory
  | none => .error (.fileNotFound none)

-- Adds an entry to a directory.
def enter (fs : Files) (name : PyStr) (dir : Path) (node : Node) : Except FileError Unit × Files :=
  match fs.node? dir with
  | some .dir => (.ok (), fs.put (name :: dir) node)
  | some (.file _) => (.error .notADirectory, fs)
  | none => (.error (.fileNotFound none), fs)

-- `mkdir`, where a directory that is already there is fine.
def mkdir (fs : Files) (name : PyStr) (dir : Path) : Except FileError Unit × Files :=
  match fs.node? (name :: dir) with
  | some .dir => (.ok (), fs)
  | some (.file _) => (.error (.fileExists none), fs)
  | none => fs.enter name dir .dir

-- `os.makedirs(path, exist_ok=True)`.
def makedirs (fs : Files) : Path → Except FileError Unit × Files
  | [] => (.ok (), fs)
  | name :: dir =>
      if fs.pathExists dir then fs.mkdir name dir
      else
        match fs.makedirs dir with
        | (.ok (), fs) | (.error (.fileExists _), fs) => fs.mkdir name dir
        | (.error e, fs) => (.error e, fs)

def write (fs : Files) (path : Path) (content : Bytes) : Except FileError Unit × Files :=
  match path, fs.node? path with
  | name :: dir, none => fs.enter name dir (.file content)
  | _, some (.file _) => (.ok (), fs.put path (.file content))
  | _, _ => (.error .isADirectory, fs)

-- `shutil.copy2`, without the metadata.
def copy2 (fs : Files) (source destination : Path) : Except FileError Unit × Files :=
  let destination := if fs.isDir destination then basename source :: destination else destination
  match fs.read source with
  | .error e => (.error e, fs)
  | .ok content => if source = destination then (.error .sameFile, fs) else fs.write destination content

section Lemmas

variable (fs : Files)

theorem node?_put (name : PyStr) (dir path : Path) (node : Node) :
    (fs.put (name :: dir) node).node? path = if path = name :: dir then some node else fs.node? path := by
  cases path with
  | nil => rw [if_neg (List.cons_ne_nil name dir).symm]; rfl
  | cons name' dir' =>
      rw [node?, node?, put]
      split
      · next h => rw [h, AList.lookup_insert]
      · next h => rw [AList.lookup_insert_ne h]

theorem node?_put_self (name : PyStr) (dir : Path) (node : Node) :
    (fs.put (name :: dir) node).node? (name :: dir) = some node := by
  rw [node?_put, if_pos rfl]

theorem node?_put_ne (name : PyStr) (dir path : Path) (node : Node) (h : path ≠ name :: dir) :
    (fs.put (name :: dir) node).node? path = fs.node? path := by
  rw [node?_put, if_neg h]

theorem pathExists_eq_false (path : Path) : fs.pathExists path = false ↔ fs.node? path = none := by
  rw [pathExists, Option.isSome_eq_false_iff, Option.isNone_iff_eq_none]

theorem isFile_eq_true (path : Path) : fs.isFile path = true ↔ ∃ content, fs.node? path = some (.file content) := by
  unfold isFile
  split
  · next content h => simp [h]
  · next h => exact iff_of_false Bool.false_ne_true fun ⟨content, hcontent⟩ => h content hcontent

theorem read_eq_ok (path : Path) (content : Bytes) :
    fs.read path = .ok content ↔ fs.node? path = some (.file content) := by
  unfold read
  split
  · next h => simp [h]
  · next h => simp [h]
  · next h => simp [h]

theorem finite_paths : {path | fs.pathExists path = true}.Finite := by
  refine ([] :: fs.nodes.keys).toFinset.finite_toSet.subset fun path hpath => ?_
  rw [List.coe_toFinset]
  cases path with
  | nil => exact List.mem_cons_self
  | cons name dir => exact List.mem_cons_of_mem _ (AList.lookup_isSome.mp hpath)

-- What is new after a call is a directory.
def OnlyAdds (path : Path) (fs fs' : Files) : Prop :=
  ∀ q, fs'.node? q = fs.node? q ∨ (q <:+ path ∧ fs.node? q = none)

theorem mkdir_onlyAdds (name : PyStr) (dir : Path) : OnlyAdds (name :: dir) fs (fs.mkdir name dir).2 := by
  intro q
  unfold mkdir
  split
  · exact .inl rfl
  · exact .inl rfl
  · next hnone =>
      unfold enter
      split
      · by_cases hq : q = name :: dir
        · rw [hq]
          exact .inr ⟨List.suffix_rfl, hnone⟩
        · exact .inl (fs.node?_put_ne name dir q .dir hq)
      · exact .inl rfl
      · exact .inl rfl

theorem OnlyAdds.trans {name : PyStr} {dir : Path} {fs fs' fs'' : Files} (h : OnlyAdds dir fs fs')
    (h' : OnlyAdds (name :: dir) fs' fs'') : OnlyAdds (name :: dir) fs fs'' := by
  intro q
  rcases h q with hsame | ⟨hq, hnone⟩
  · rw [← hsame]
    exact h' q
  · exact .inr ⟨hq.trans (List.suffix_cons name dir), hnone⟩

-- Nothing that exists is changed, and what is made is on the way to the directory.
theorem makedirs_onlyAdds (path : Path) : OnlyAdds path fs (fs.makedirs path).2 := by
  induction path with
  | nil => exact fun q => .inl rfl
  | cons name dir ih =>
      rw [makedirs]
      split
      · exact fs.mkdir_onlyAdds name dir
      · split
        · next fs' h =>
            rw [h] at ih
            exact ih.trans (fs'.mkdir_onlyAdds name dir)
        · next fs' h =>
            rw [h] at ih
            exact ih.trans (fs'.mkdir_onlyAdds name dir)
        · next e fs' _ h =>
            rw [h] at ih
            exact ih.trans fun q => .inl rfl

theorem OnlyAdds.node? {path : Path} {fs fs' : Files} (h : OnlyAdds path fs fs') (q : Path) (node : Node)
    (hq : fs.node? q = some node) : fs'.node? q = some node := by
  rcases h q with hsame | ⟨-, hnone⟩
  · rw [hsame, hq]
  · rw [hq] at hnone
    cases hnone

-- No file stands where a directory is needed.
def Clear (fs : Files) (path : Path) : Prop := ∀ q, q <:+ path → fs.isFile q = false

theorem mkdir_ok (name : PyStr) (dir : Path) (hdir : fs.isDir dir = true) (hclear : fs.isFile (name :: dir) = false) :
    (fs.mkdir name dir).1 = .ok () ∧ (fs.mkdir name dir).2.isDir (name :: dir) = true := by
  rw [isDir, decide_eq_true_eq] at hdir
  unfold mkdir
  split
  · next h => exact ⟨rfl, decide_eq_true h⟩
  · next content h =>
      have hfile := (fs.isFile_eq_true (name :: dir)).mpr ⟨content, h⟩
      rw [hclear] at hfile
      cases hfile
  · rw [enter, hdir]
    exact ⟨rfl, decide_eq_true (fs.node?_put_self name dir .dir)⟩

theorem isDir_of_exists (path : Path) (hexists : fs.pathExists path = true) (hclear : fs.isFile path = false) :
    fs.isDir path = true := by
  unfold pathExists at hexists
  unfold isFile at hclear
  unfold isDir
  cases h : fs.node? path with
  | none =>
      rw [h] at hexists
      cases hexists
  | some node =>
      cases node with
      | dir => rfl
      | file content =>
          rw [h] at hclear
          cases hclear

theorem makedirs_ok (path : Path) (hclear : fs.Clear path) :
    (fs.makedirs path).1 = .ok () ∧ (fs.makedirs path).2.isDir path = true := by
  induction path with
  | nil => exact ⟨rfl, rfl⟩
  | cons name dir ih =>
      have hself : fs.isFile (name :: dir) = false := hclear _ List.suffix_rfl
      have hparent : fs.Clear dir := fun q hq => hclear q (hq.trans (List.suffix_cons name dir))
      rw [makedirs]
      by_cases hexists : fs.pathExists dir = true
      · rw [if_pos hexists]
        exact fs.mkdir_ok name dir (fs.isDir_of_exists dir hexists (hparent dir List.suffix_rfl)) hself
      · rw [if_neg hexists]
        obtain ⟨hok, hdir⟩ := ih hparent
        have honly := fs.makedirs_onlyAdds dir
        rcases hmade : fs.makedirs dir with ⟨out, fs'⟩
        rw [hmade] at hok hdir honly
        obtain rfl : out = .ok () := hok
        refine fs'.mkdir_ok name dir hdir ?_
        rcases honly (name :: dir) with hsame | ⟨hsuffix, -⟩
        · rw [isFile, hsame]
          exact hself
        · have hlength := hsuffix.length_le
          simp at hlength

theorem write_file (name : PyStr) (dir : Path) (content : Bytes) (hdir : fs.isDir dir = true)
    (hplain : fs.isDir (name :: dir) = false) :
    fs.write (name :: dir) content = (.ok (), fs.put (name :: dir) (.file content)) := by
  rw [isDir, decide_eq_true_eq] at hdir
  rw [isDir, decide_eq_false_iff_not] at hplain
  cases hnode : fs.node? (name :: dir) with
  | none => simp only [write, hnode, enter, hdir]
  | some node =>
      cases node with
      | file old => simp only [write, hnode]
      | dir => exact absurd hnode hplain

theorem write_cases (path : Path) (content : Bytes) :
    (∃ e, fs.write path content = (.error e, fs) ∧ ∀ msg, e ≠ .fileExists msg) ∨
      ∃ name dir, path = name :: dir ∧ fs.write path content = (.ok (), fs.put path (.file content)) := by
  cases path with
  | nil => exact .inl ⟨_, rfl, nofun⟩
  | cons name dir =>
      cases hnode : fs.node? (name :: dir) with
      | none =>
          simp only [write, hnode, enter]
          split
          · exact .inr ⟨name, dir, rfl, rfl⟩
          · exact .inl ⟨_, rfl, nofun⟩
          · exact .inl ⟨_, rfl, nofun⟩
      | some node =>
          simp only [write, hnode]
          cases node with
          | file old => exact .inr ⟨name, dir, rfl, rfl⟩
          | dir => exact .inl ⟨_, rfl, nofun⟩

-- Either nothing changes, or the destination gets the content of the source.
theorem copy2_cases (source destination : Path) (hplain : fs.isDir destination = false) :
    (∃ e, fs.copy2 source destination = (.error e, fs) ∧ ∀ msg, e ≠ .fileExists msg) ∨
      ∃ content name dir, destination = name :: dir ∧ fs.node? source = some (.file content) ∧
        fs.copy2 source destination = (.ok (), fs.put destination (.file content)) := by
  simp only [copy2, hplain, Bool.false_eq_true, if_false]
  cases hread : fs.read source with
  | error e =>
      refine .inl ⟨e, rfl, ?_⟩
      rintro msg rfl
      unfold read at hread
      split at hread <;> cases hread
  | ok content =>
      simp only
      by_cases hsame : source = destination
      · rw [if_pos hsame]
        exact .inl ⟨.sameFile, rfl, nofun⟩
      · rw [if_neg hsame]
        rcases fs.write_cases destination content with herror | ⟨name, dir, hpath, hwrite⟩
        · exact .inl herror
        · exact .inr ⟨content, name, dir, hpath, (fs.read_eq_ok source content).mp hread, hwrite⟩

theorem copy2_file (source : Path) (name : PyStr) (dir : Path) (content : Bytes)
    (hsource : fs.node? source = some (.file content)) (hdir : fs.isDir dir = true)
    (hplain : fs.isDir (name :: dir) = false) (hother : source ≠ name :: dir) :
    fs.copy2 source (name :: dir) = (.ok (), fs.put (name :: dir) (.file content)) := by
  simp only [copy2, hplain, Bool.false_eq_true, if_false, (fs.read_eq_ok source content).mpr hsource, if_neg hother]
  exact fs.write_file name dir content hdir hplain

end Lemmas

end Files

end V91Core.Python
