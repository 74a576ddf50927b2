import V91Core.Python.FileTree
import V91Core.Worker.Process

namespace V91Core.Worker

open V91Core.Python

def maxWorkspaceFileBytes : Nat := 512 * 1024 * 1024

-- `WORKSPACE_ROOT`, resolved at the import and made by `ensure_layout`: what there is of it is a directory.
structure Workspace where
  tree : FileTree
  root : Python.Place
  parts : ∀ name ∈ root, IsPart name
  resolved : ∀ place, place <+: root → ∀ node, tree.lstat place = .ok node → node = .dir

namespace Workspace

variable (ws : Workspace) (depth : Nat)

-- The loop over `raw.parts`.
def checkLinks : Python.Place → List PyStr → Except PyExc Python.Place
  | candidate, [] => return candidate
  | candidate, part :: rest => do
      if ← ws.tree.isSymlink (candidate ++ [part]) then
        .error (.controlError (py "Symbolic links are not allowed in workspace tasks."))
      else checkLinks (candidate ++ [part]) rest

-- `candidate.resolve(strict=True)`. Only an `OSError` or a `RuntimeError` is caught.
def resolveCandidate (candidate : Python.Place) : Except PyExc Python.Place :=
  match ws.tree.resolve depth candidate with
  | .ok resolved => return resolved
  | .error f =>
      if f.isValueError then .error f.exc
      else .error (.controlError (py "Requested workspace file does not exist."))

-- `resolved.is_relative_to(WORKSPACE_ROOT) and resolved.is_file()`.
def isRegularInside (resolved : Python.Place) : Except PyExc Bool :=
  if ws.root.isPrefixOf resolved then ws.tree.isFile resolved else return false

-- `resolved.stat().st_size`. Of anything but a regular file it is not asked.
def fileSize (resolved : Python.Place) : Except PyExc Nat :=
  match ws.tree.stat resolved with
  | .ok (.file size) => return size
  | .ok _ => return 0
  | .error f => .error f.exc

-- The checks of `workspace_file` on what the path resolves to.
def checkResolved (resolved : Python.Place) : Except PyExc Python.Place := do
  if !(← ws.isRegularInside resolved) then
    .error (.controlError (py "Requested path is not a regular file inside the workspace."))
  else if maxWorkspaceFileBytes < (← ws.fileSize resolved) then
    .error (.controlError (py "Workspace file exceeds the 512 MiB processing limit."))
  else return resolved

-- `workspace_file` behind its first check.
def locate (relativePath : PyStr) : Except PyExc Python.Place := do
  if isAbsolute relativePath || (pathParts relativePath).any fun part => part = py ".." ∨ part = py "." then
    .error (.controlError (py "Only normalized relative paths inside the workspace are allowed."))
  else
    let candidate ← ws.checkLinks ws.root (pathParts relativePath)
    let resolved ← ws.resolveCandidate depth candidate
    ws.checkResolved resolved

def workspaceFile (relativePath : Option Json) : Except PyExc Python.Place := do
  ws.locate depth (← requirePath relativePath)

-- A regular file in the workspace that no link leads to.
structure Confined (path : Python.Place) : Prop where
  inside : ws.root <+: path ∧ path ≠ ws.root
  unlinked : ∀ place, place <+: path → ws.tree.isSymlink place = .ok false
  regular : ∃ size, ws.tree.look path = .ok (.file size) ∧ size ≤ maxWorkspaceFileBytes

-- The path that a value names in the workspace.
def Names (relativePath : Option Json) (path : Python.Place) : Prop :=
  ∃ s, relativePath = some (.str s) ∧ strip s ≠ [] ∧ isAbsolute s = false ∧ py ".." ∉ pathParts s ∧
    path = ws.root ++ pathParts s

theorem isPart_of_mem_pathParts (s name : PyStr) (hdots : py ".." ∉ pathParts s) (h : name ∈ pathParts s) :
    IsPart name := by
  have hfilter := (List.mem_filter.mp h).2
  have hne : name ≠ [] ∧ name ≠ py "." := of_decide_eq_true hfilter
  exact ⟨hne.1, hne.2, fun heq => hdots (heq ▸ h)⟩

theorem isSymlink_eq_false (tree : FileTree) (path : Python.Place) (h : tree.isSymlink path = .ok false)
    (target : PyStr) : tree.lstat path ≠ .ok (.link target) := by
  intro hlink
  rw [FileTree.isSymlink, hlink] at h
  cases h

theorem isSymlink_of_lstat (tree : FileTree) (path : Python.Place) (node : FileNode) (h : tree.lstat path = .ok node)
    (hlink : ∀ target, node ≠ .link target) : tree.isSymlink path = .ok false := by
  rw [FileTree.isSymlink, h]
  cases node with
  | link target => exact absurd rfl (hlink target)
  | _ => rfl

-- The loop passes when no part of the path is a link.
theorem checkLinks_eq_ok_iff (candidate parts path : Python.Place) :
    ws.checkLinks candidate parts = .ok path ↔ path = candidate ++ parts ∧
      ∀ way, way ≠ [] → way <+: parts → ws.tree.isSymlink (candidate ++ way) = .ok false := by
  induction parts generalizing candidate with
  | nil =>
      rw [checkLinks, List.append_nil]
      refine ⟨fun h => ⟨(Except.ok.inj h).symm, fun way hne hway => absurd (List.prefix_nil.mp hway) hne⟩, ?_⟩
      rintro ⟨rfl, -⟩
      rfl
  | cons part rest ih =>
      have hsplit : ∀ way : Python.Place, candidate ++ [part] ++ way = candidate ++ part :: way := fun way => by
        rw [List.append_assoc, List.singleton_append]
      have hfirst : [part] <+: part :: rest := List.cons_prefix_cons.mpr ⟨rfl, List.nil_prefix⟩
      rw [checkLinks]
      refine ⟨fun h => ?_, fun ⟨hpath, h⟩ => ?_⟩
      · obtain ⟨linked, hlinked, h⟩ := (bind_eq_ok _ _ _).mp h
        cases linked with
        | true => cases h
        | false =>
            obtain ⟨hpath, hrest⟩ := (ih (candidate ++ [part])).mp h
            rw [hsplit] at hpath
            refine ⟨hpath, fun way hne hway => ?_⟩
            cases way with
            | nil => exact absurd rfl hne
            | cons first way =>
                obtain ⟨rfl, hbehind⟩ := List.cons_prefix_cons.mp hway
                by_cases hnil : way = []
                · rw [hnil]
                  exact hlinked
                · rw [← hsplit]
                  exact hrest way hnil hbehind
      · have hlinked := h [part] (by simp) hfirst
        have hrest : ws.checkLinks (candidate ++ [part]) rest = .ok path := by
          rw [ih, hsplit]
          refine ⟨hpath, fun way _ hway => ?_⟩
          rw [hsplit]
          exact h (part :: way) (by simp) (List.cons_prefix_cons.mpr ⟨rfl, hway⟩)
        exact (bind_eq_ok _ _ _).mpr ⟨false, hlinked, hrest⟩

theorem resolveCandidate_eq_ok_iff (candidate resolved : Python.Place) :
    ws.resolveCandidate depth candidate = .ok resolved ↔ ws.tree.resolve depth candidate = .ok resolved := by
  unfold resolveCandidate
  cases ws.tree.resolve depth candidate with
  | ok place => exact ⟨fun h => congrArg _ (Except.ok.inj h), fun h => congrArg _ (Except.ok.inj h)⟩
  | error f =>
      refine ⟨fun h => ?_, fun h => (by cases h)⟩
      dsimp only at h
      split at h <;> cases h

-- A part of a path in the workspace is one of the root's or lies behind it.
theorem way_cases (parts way : Python.Place) (h : way <+: ws.root ++ parts) :
    way <+: ws.root ∨ ∃ behind, behind ≠ [] ∧ behind <+: parts ∧ way = ws.root ++ behind := by
  rcases List.prefix_or_prefix_of_prefix h (List.prefix_append ws.root parts) with hroot | ⟨behind, rfl⟩
  · exact .inl hroot
  · by_cases hnil : behind = []
    · rw [hnil, List.append_nil]
      exact .inl List.prefix_rfl
    · exact .inr ⟨behind, hnil, (List.prefix_append_right_inj ws.root).mp h, rfl⟩

theorem unlinked_of_parts (parts : Python.Place)
    (h : ∀ way, way ≠ [] → way <+: parts → ws.tree.isSymlink (ws.root ++ way) = .ok false) (way : Python.Place)
    (hway : way <+: ws.root ++ parts) (target : PyStr) : ws.tree.lstat way ≠ .ok (.link target) := by
  rcases ws.way_cases parts way hway with hroot | ⟨behind, hne, hbehind, rfl⟩
  · exact fun hlink => absurd (ws.resolved way hroot _ hlink) (by simp)
  · exact isSymlink_eq_false ws.tree _ (h behind hne hbehind) target

-- What passes the loop resolves to itself.
theorem resolve_eq_ok_iff (parts resolved : Python.Place) (hparts : ∀ name ∈ parts, IsPart name)
    (h : ∀ way, way ≠ [] → way <+: parts → ws.tree.isSymlink (ws.root ++ way) = .ok false) :
    ws.tree.resolve depth (ws.root ++ parts) = .ok resolved ↔
      resolved = ws.root ++ parts ∧ ws.tree.Direct (ws.root ++ parts) := by
  have hunlinked := ws.unlinked_of_parts parts h
  have hall : ∀ name ∈ ws.root ++ parts, IsPart name := fun name hn =>
    (List.mem_append.mp hn).elim (ws.parts name) (hparts name)
  obtain ⟨next, hnext⟩ := ws.tree.exists_realWith depth
  rw [FileTree.resolve, hnext, ws.tree.realWith_eq_ok_iff next [] (ws.root ++ parts) resolved hall
    fun way _ hway => hunlinked way hway, List.nil_append]
  refine and_congr_right fun _ => ⟨fun hfound way hne hway => ?_, fun hdirect way hne hway => ?_⟩
  · obtain ⟨node, hnode⟩ := hfound way hne hway
    exact ⟨node, hnode, fun target ht => hunlinked way hway target (ht ▸ hnode)⟩
  · obtain ⟨node, hnode, -⟩ := hdirect way hne hway
    exact ⟨node, hnode⟩

theorem isFile_eq_true (path : Python.Place) (h : ws.tree.isFile path = .ok true) :
    ∃ size, ws.tree.stat path = .ok (.file size) := by
  unfold FileTree.isFile at h
  split at h
  next size hstat => exact ⟨size, hstat⟩
  next => cases h
  next => split at h <;> cases h

theorem isRegularInside_eq_true (resolved : Python.Place) (h : ws.isRegularInside resolved = .ok true) :
    ws.root <+: resolved ∧ ∃ size, ws.tree.stat resolved = .ok (.file size) := by
  unfold isRegularInside at h
  by_cases hroot : ws.root.isPrefixOf resolved
  · rw [if_pos hroot] at h
    exact ⟨List.isPrefixOf_iff_prefix.mp hroot, ws.isFile_eq_true resolved h⟩
  · rw [if_neg hroot] at h
    cases h

-- The last checks pass for a regular file of the workspace that is not too large.
theorem checkResolved_eq_ok_iff (resolved path : Python.Place) :
    ws.checkResolved resolved = .ok path ↔ path = resolved ∧ ws.root <+: resolved ∧
      ∃ size, ws.tree.stat resolved = .ok (.file size) ∧ size ≤ maxWorkspaceFileBytes := by
  unfold checkResolved
  refine ⟨fun h => ?_, ?_⟩
  · obtain ⟨regular, hregular, h⟩ := (bind_eq_ok _ _ _).mp h
    cases regular with
    | false => cases h
    | true =>
        obtain ⟨hroot, size, hstat⟩ := ws.isRegularInside_eq_true resolved hregular
        obtain ⟨found, hfound, h⟩ := (bind_eq_ok _ _ _).mp h
        rw [fileSize, hstat] at hfound
        have hsize : size = found := Except.ok.inj hfound
        by_cases hle : maxWorkspaceFileBytes < found
        · rw [if_pos hle] at h
          cases h
        · rw [if_neg hle] at h
          exact ⟨(Except.ok.inj h).symm, hroot, size, hstat, by omega⟩
  · rintro ⟨rfl, hroot, size, hstat, hle⟩
    have hregular : ws.isRegularInside path = .ok true := by
      rw [isRegularInside, if_pos (List.isPrefixOf_iff_prefix.mpr hroot), FileTree.isFile, hstat]
    have hsize : ws.fileSize path = .ok size := by
      rw [fileSize, hstat]
      rfl
    refine (bind_eq_ok _ _ _).mpr ⟨true, hregular, (bind_eq_ok _ _ _).mpr ⟨size, hsize, ?_⟩⟩
    rw [if_neg (by omega)]
    rfl

-- A file that no link leads to is seen as none at every part of its path.
theorem isSymlink_of_look (tree : FileTree) (path : Python.Place) (size : Nat) (h : tree.look path = .ok (.file size))
    (hne : path ≠ []) (place : Python.Place) (hplace : place <+: path) : tree.isSymlink place = .ok false := by
  by_cases hnil : place = []
  · have hdir := tree.look_dir_of_look [] path _ h hne
    rw [hnil]
    exact isSymlink_of_lstat tree [] .dir (by rw [tree.lstat_nil, hdir]) (by simp)
  · obtain ⟨node, hnode, hlink⟩ := tree.direct_of_look path _ h (by simp) place hnil hplace
    exact isSymlink_of_lstat tree place node hnode hlink

-- The workspace itself is no regular file.
theorem stat_root (size : Nat) (hdirect : ws.tree.Direct ws.root) : ws.tree.stat ws.root ≠ .ok (.file size) := by
  intro hstat
  have hlook := hdirect.look ws.tree ws.parts
  rw [hdirect.stat ws.tree ws.parts, ← hlook] at hstat
  exact absurd (ws.resolved ws.root List.prefix_rfl _ hstat) (by simp)

theorem anyDots_eq_false (s : PyStr) :
    ((pathParts s).any fun part => part = py ".." ∨ part = py ".") = false ↔ py ".." ∉ pathParts s := by
  rw [List.any_eq_false]
  refine ⟨fun h hmem => h _ hmem (decide_eq_true (.inl rfl)), fun h part hpart hdots => ?_⟩
  have hpart' := isPart_of_mem_pathParts s part h hpart
  rcases of_decide_eq_true hdots with hd | hd
  · exact hpart'.ne_dots hd
  · exact hpart'.ne_dot hd

theorem confined_of_checkResolved (parts path : Python.Place) (hparts : ∀ name ∈ parts, IsPart name)
    (hdirect : ws.tree.Direct (ws.root ++ parts)) (h : ws.checkResolved (ws.root ++ parts) = .ok path) :
    path = ws.root ++ parts ∧ ws.Confined path := by
  obtain ⟨hpath, hroot, size, hstat, hle⟩ := (ws.checkResolved_eq_ok_iff _ _).mp h
  have hall : ∀ name ∈ ws.root ++ parts, IsPart name := fun name hn =>
    (List.mem_append.mp hn).elim (ws.parts name) (hparts name)
  have hne : ws.root ++ parts ≠ ws.root := by
    intro heq
    rw [heq] at hstat hdirect
    exact ws.stat_root size hdirect hstat
  rw [hdirect.stat ws.tree hall] at hstat
  rw [hpath]
  refine ⟨rfl, ⟨hroot, hne⟩, isSymlink_of_look ws.tree _ size hstat ?_, size, hstat, hle⟩
  intro hnil
  obtain ⟨hrootNil, hpartsNil⟩ := List.append_eq_nil_iff.mp hnil
  exact hne (by rw [hrootNil, hpartsNil, List.append_nil])

theorem checkResolved_of_confined (path : Python.Place) (hparts : ∀ name ∈ path, IsPart name) (h : ws.Confined path) :
    ws.checkResolved path = .ok path := by
  obtain ⟨size, hlook, hle⟩ := h.regular
  have hdirect := ws.tree.direct_of_look path _ hlook (by simp)
  refine (ws.checkResolved_eq_ok_iff path path).mpr ⟨rfl, h.inside.1, size, ?_, hle⟩
  rw [hdirect.stat ws.tree hparts, hlook]

theorem locate_eq_ok_iff (s : PyStr) (path : Python.Place) :
    ws.locate depth s = .ok path ↔
      isAbsolute s = false ∧ py ".." ∉ pathParts s ∧ path = ws.root ++ pathParts s ∧ ws.Confined path := by
  unfold locate
  refine ⟨fun h => ?_, ?_⟩
  · split at h
    next => cases h
    next hlexical =>
        obtain ⟨habs, hany⟩ := Bool.or_eq_false_iff.mp (Bool.not_eq_true _ ▸ hlexical)
        have hdots := (anyDots_eq_false s).mp hany
        have hparts := fun name hn => isPart_of_mem_pathParts s name hdots hn
        obtain ⟨candidate, hlinks, h⟩ := (bind_eq_ok _ _ _).mp h
        obtain ⟨hcandidate, hunlinked⟩ := (ws.checkLinks_eq_ok_iff _ _ _).mp hlinks
        obtain ⟨resolved, hresolve, h⟩ := (bind_eq_ok _ _ _).mp h
        rw [hcandidate, resolveCandidate_eq_ok_iff, ws.resolve_eq_ok_iff depth _ _ hparts hunlinked] at hresolve
        obtain ⟨hresolved, hdirect⟩ := hresolve
        rw [hresolved] at h
        obtain ⟨hpath, hconfined⟩ := ws.confined_of_checkResolved _ _ hparts hdirect h
        exact ⟨habs, hdots, hpath, hconfined⟩
  · rintro ⟨habs, hdots, rfl, hconfined⟩
    have hparts := fun name hn => isPart_of_mem_pathParts s name hdots hn
    have hall : ∀ name ∈ ws.root ++ pathParts s, IsPart name := fun name hn =>
      (List.mem_append.mp hn).elim (ws.parts name) (hparts name)
    obtain ⟨size, hlook, -⟩ := hconfined.regular
    have hdirect := ws.tree.direct_of_look _ _ hlook (by simp)
    have hunlinked : ∀ way, way ≠ [] → way <+: pathParts s → ws.tree.isSymlink (ws.root ++ way) = .ok false :=
      fun way _ hway => hconfined.unlinked _ ((List.prefix_append_right_inj ws.root).mpr hway)
    have hresolve : ws.resolveCandidate depth (ws.root ++ pathParts s) = .ok (ws.root ++ pathParts s) := by
      rw [resolveCandidate_eq_ok_iff, ws.resolve_eq_ok_iff depth _ _ hparts hunlinked]
      exact ⟨rfl, hdirect⟩
    rw [if_neg (by rw [habs, (anyDots_eq_false s).mpr hdots]; decide)]
    refine (bind_eq_ok _ _ _).mpr ⟨_, (ws.checkLinks_eq_ok_iff _ _ _).mpr ⟨rfl, hunlinked⟩, ?_⟩
    exact (bind_eq_ok _ _ _).mpr ⟨_, hresolve, ws.checkResolved_of_confined _ hall hconfined⟩

theorem requirePath_eq_ok_iff (value : Option Json) (s : PyStr) :
    requirePath value = .ok s ↔ value = some (.str s) ∧ strip s ≠ [] := by
  unfold requirePath
  split
  next text =>
      by_cases hblank : strip text = []
      · rw [if_pos hblank]
        refine ⟨fun h => (by cases h), ?_⟩
        rintro ⟨hvalue, hne⟩
        cases hvalue
        exact absurd hblank hne
      · rw [if_neg hblank]
        refine ⟨fun h => ?_, ?_⟩
        · cases h
          exact ⟨rfl, hblank⟩
        · rintro ⟨hvalue, -⟩
          cases hvalue
          rfl
  next hother => exact ⟨fun h => (by cases h), fun ⟨hvalue, _⟩ => absurd hvalue (hother s)⟩

-- For any value `workspace_file` either gives the regular file of that name inside the workspace, which no
-- link leads to, or raises; it does not refuse such a file.
theorem workspaceFile_confined (value : Option Json) :
    (∃ path, ws.workspaceFile depth value = .ok path ∧ ws.Names value path ∧ ws.Confined path) ∨
      ∃ e, ws.workspaceFile depth value = .error e ∧ ∀ path, ws.Names value path → ¬ws.Confined path := by
  have hiff : ∀ path, ws.workspaceFile depth value = .ok path ↔ ws.Names value path ∧ ws.Confined path := by
    intro path
    refine ⟨fun h => ?_, ?_⟩
    · obtain ⟨s, hs, h⟩ := (bind_eq_ok _ _ _).mp h
      obtain ⟨hvalue, hne⟩ := (requirePath_eq_ok_iff value s).mp hs
      obtain ⟨habs, hdots, hpath, hconfined⟩ := (ws.locate_eq_ok_iff depth s path).mp h
      exact ⟨⟨s, hvalue, hne, habs, hdots, hpath⟩, hconfined⟩
    · rintro ⟨⟨s, hvalue, hne, habs, hdots, hpath⟩, hconfined⟩
      refine (bind_eq_ok _ _ _).mpr ⟨s, (requirePath_eq_ok_iff value s).mpr ⟨hvalue, hne⟩, ?_⟩
      exact (ws.locate_eq_ok_iff depth s path).mpr ⟨habs, hdots, hpath, hconfined⟩
  cases hresult : ws.workspaceFile depth value with
  | ok path => exact .inl ⟨path, rfl, (hiff path).mp hresult⟩
  | error e =>
      refine .inr ⟨e, rfl, fun path hnames hconfined => ?_⟩
      rw [(hiff path).mpr ⟨hnames, hconfined⟩] at hresult
      cases hresult

section Sample

-- A workspace with a file and a link that leads out of it.
def sampleLook (place : Python.Place) : Except Failure FileNode :=
  if place = [] ∨ place = [py "w"] then .ok .dir
  else if place = [py "w", py "f"] then .ok (.file 3)
  else if place = [py "w", py "l"] then .ok (.link (py "/"))
  else .error .missing

theorem sampleLook_eq_ok (place : Python.Place) (node : FileNode) (h : sampleLook place = .ok node) :
    place ∈ [[], [py "w"], [py "w", py "f"], [py "w", py "l"]] := by
  unfold sampleLook at h
  split at h
  next hdir => rcases hdir with rfl | rfl <;> simp
  next =>
    split at h
    next hfile => simp [hfile]
    next =>
      split at h
      next hlink => simp [hlink]
      next => cases h

def sampleTree : FileTree where
  look := sampleLook
  parent place name node h := by
    have hmem := sampleLook_eq_ok _ _ h
    have hplace : place = (place ++ [name]).dropLast := by simp
    generalize place ++ [name] = whole at hmem hplace
    simp only [List.mem_cons, List.not_mem_nil, or_false] at hmem
    rcases hmem with rfl | rfl | rfl | rfl <;> rw [hplace] <;> decide +kernel
  named place name node h := by
    have hmem := sampleLook_eq_ok _ _ h
    have hname : some name = (place ++ [name]).getLast? := by simp
    generalize place ++ [name] = whole at hmem hname
    simp only [List.mem_cons, List.not_mem_nil, or_false] at hmem
    rcases hmem with rfl | rfl | rfl | rfl
    · cases hname
    all_goals
      cases hname
      decide +kernel

def sampleWorkspace : Workspace where
  tree := sampleTree
  root := [py "w"]
  parts := by decide
  resolved place hplace node h := by
    have hmem : place = [] ∨ place = [py "w"] := by
      rcases List.prefix_cons_iff.mp hplace with hnil | ⟨rest, rfl, hrest⟩
      · exact .inl hnil
      · rw [List.prefix_nil.mp hrest]
        exact .inr rfl
    rcases hmem with rfl | rfl
    · have hdir : sampleTree.lstat [] = .ok .dir := by decide +kernel
      rw [hdir] at h
      exact (Except.ok.inj h).symm
    · have hdir : sampleTree.lstat [py "w"] = .ok .dir := by decide +kernel
      rw [hdir] at h
      exact (Except.ok.inj h).symm

example : sampleWorkspace.workspaceFile 0 (some (.str (py "./f"))) = .ok [py "w", py "f"] := by decide +kernel

example : sampleWorkspace.workspaceFile 0 (some (.str (py "l/w/f"))) =
    .error (.controlError (py "Symbolic links are not allowed in workspace tasks.")) := by decide +kernel

end Sample

end Workspace

end V91Core.Worker
