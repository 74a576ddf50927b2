import V91Core.Python.Exc

namespace V91Core.Python

inductive FileNode where
  | file (size : Nat)
  | dir
  | link (target : PyStr)
  | special
deriving DecidableEq

-- Why a file cannot be looked up.
inductive Failure where
  | missing
  | notDirectory
  | loop
  | refused (name : PyStr)
  | embeddedNull
  | notEncodable
deriving DecidableEq

namespace Failure

-- `_ignore_error`.
def isIgnored : Failure → Bool
  | .missing | .notDirectory | .loop => true
  | _ => false

def isValueError : Failure → Bool
  | .embeddedNull | .notEncodable => true
  | _ => false

def exc : Failure → PyExc
  | .missing => .fileNotFound
  | .notDirectory => .osError (py "NotADirectoryError")
  | .loop => .osError (py "OSError")
  | .refused name => .osError name
  | .embeddedNull => .valueError (py "embedded null byte")
  | .notEncodable => .unicodeEncode

end Failure

section Paths

-- `str.split("/")`.
def splitSep : PyStr → List PyStr
  | [] => [[]]
  | c :: rest =>
      if c = cp '/' then [] :: splitSep rest
      else match splitSep rest with
        | [] => [[c]]
        | part :: parts => (c :: part) :: parts

def isAbsolute (path : PyStr) : Bool := path.head? = some (cp '/')

-- The parts of a relative `Path`.
def pathParts (path : PyStr) : List PyStr := (splitSep path).filter fun part => part ≠ [] ∧ part ≠ py "."

-- A part of a path that leads to a place of its own.
structure IsPart (name : PyStr) : Prop where
  ne_nil : name ≠ []
  ne_dot : name ≠ py "."
  ne_dots : name ≠ py ".."

-- What a file can be called. `os.fsencode` keeps the bytes that are no UTF-8 as surrogates.
structure IsFileName (name : PyStr) : Prop extends IsPart name where
  plain : ∀ c ∈ name, c ≠ cp '/' ∧ c.val ≠ 0 ∧ (c.isSurrogate = true → 0xDC80 ≤ c.val ∧ c.val ≤ 0xDCFF)

instance (name : PyStr) : Decidable (IsPart name) :=
  decidable_of_iff (name ≠ [] ∧ name ≠ py "." ∧ name ≠ py "..")
    ⟨fun ⟨hnil, hdot, hdots⟩ => ⟨hnil, hdot, hdots⟩, fun h => ⟨h.ne_nil, h.ne_dot, h.ne_dots⟩⟩

instance (name : PyStr) : Decidable (IsFileName name) :=
  decidable_of_iff (IsPart name ∧ (name.all fun c =>
      c ≠ cp '/' ∧ c.val ≠ 0 ∧ (c.isSurrogate = true → 0xDC80 ≤ c.val ∧ c.val ≤ 0xDCFF)) = true)
    ⟨fun ⟨hpart, hplain⟩ => ⟨hpart, fun c hc => of_decide_eq_true (List.all_eq_true.mp hplain c hc)⟩,
      fun h => ⟨h.toIsPart, List.all_eq_true.mpr fun c hc => decide_eq_true (h.plain c hc)⟩⟩

end Paths

-- The names from the top directory on.
abbrev Place := List PyStr

-- The files of a system by the place where they are, with no link on the way.
structure FileTree where
  look : Place → Except Failure FileNode
  parent : ∀ place name node, look (place ++ [name]) = .ok node → look place = .ok .dir
  named : ∀ place name node, look (place ++ [name]) = .ok node → IsFileName name

namespace FileTree

variable (tree : FileTree)

section Lookup

-- The way of the system along a path. `next` follows a link.
def walkWith (follow : Bool) (next : Place → List PyStr → Except Failure FileNode) :
    Place → List PyStr → Except Failure FileNode
  | place, [] => tree.look place
  | place, name :: rest =>
      if name = [] ∨ name = py "." then walkWith follow next place rest
      else if name = py ".." then walkWith follow next place.dropLast rest
      else match tree.look (place ++ [name]) with
        | .error e => .error e
        | .ok (.link target) =>
            if rest = [] ∧ follow = false then .ok (.link target)
            else next (if isAbsolute target then [] else place) (splitSep target ++ rest)
        | .ok .dir => walkWith follow next (place ++ [name]) rest
        | .ok node => if rest = [] then .ok node else .error .notDirectory

def walk (follow : Bool) : Nat → Place → List PyStr → Except Failure FileNode
  | 0 => tree.walkWith follow fun _ _ => .error .loop
  | links + 1 => tree.walkWith follow (walk follow links)

-- As many links are followed.
def maxLinks : Nat := 40

def lstat (path : Place) : Except Failure FileNode := tree.walk false maxLinks [] path

def stat (path : Place) : Except Failure FileNode := tree.walk true maxLinks [] path

def isSymlink (path : Place) : Except PyExc Bool :=
  match tree.lstat path with
  | .ok (.link _) => .ok true
  | .ok _ => .ok false
  | .error f => if f.isIgnored || f.isValueError then .ok false else .error f.exc

def isFile (path : Place) : Except PyExc Bool :=
  match tree.stat path with
  | .ok (.file _) => .ok true
  | .ok _ => .ok false
  | .error f => if f.isIgnored || f.isValueError then .ok false else .error f.exc

end Lookup

section Resolve

-- `_joinrealpath` with `strict`. `next` resolves the target of a link.
def realWith (next : Place → List PyStr → Except Failure Place) : Place → List PyStr → Except Failure Place
  | place, [] => .ok place
  | place, name :: rest =>
      if name = [] ∨ name = py "." then realWith next place rest
      else if name = py ".." then realWith next place.dropLast rest
      else match tree.lstat (place ++ [name]) with
        | .error e => .error e
        | .ok (.link target) =>
            match next (if isAbsolute target then [] else place) (splitSep target) with
            | .error e => .error e
            | .ok resolved => realWith next resolved rest
        | .ok _ => realWith next (place ++ [name]) rest

-- Links that lead into each other end where the depth of the recursion does.
def realPath : Nat → Place → List PyStr → Except Failure Place
  | 0 => tree.realWith fun _ _ => .error .loop
  | depth + 1 => tree.realWith (realPath depth)

-- `Path.resolve(strict=True)`.
def resolve (depth : Nat) (path : Place) : Except Failure Place := tree.realPath depth [] path

end Resolve

section Direct

-- A directory, or the place where every path starts.
def Opens (place : Place) : Prop := place = [] ∨ tree.look place = .ok .dir

theorem opens_of_look (place : Place) (name : PyStr) (node : FileNode) (h : tree.look (place ++ [name]) = .ok node) :
    tree.Opens place := .inr (tree.parent place name node h)

theorem Opens.init {place : Place} {name : PyStr} (h : tree.Opens (place ++ [name])) :
    tree.Opens place ∧ IsFileName name := by
  rcases h with hnil | hdir
  · exact absurd hnil (by simp)
  · exact ⟨tree.opens_of_look place name .dir hdir, tree.named place name .dir hdir⟩

-- What lies on the way to a file is a directory.
theorem look_dir_of_look (place rest : Place) (node : FileNode) (h : tree.look (place ++ rest) = .ok node)
    (hrest : rest ≠ []) : tree.look place = .ok .dir := by
  induction rest using List.reverseRecOn generalizing node with
  | nil => exact absurd rfl hrest
  | append_singleton rest name ih =>
      rw [← List.append_assoc] at h
      have hdir := tree.parent _ _ _ h
      by_cases hnil : rest = []
      · rwa [hnil, List.append_nil] at hdir
      · exact ih .dir hdir hnil

theorem walkWith_part (follow : Bool) (next : Place → List PyStr → Except Failure FileNode) (place : Place)
    (name : PyStr) (rest : List PyStr) (hname : IsPart name) :
    tree.walkWith follow next place (name :: rest) = match tree.look (place ++ [name]) with
      | .error e => .error e
      | .ok (.link target) =>
          if rest = [] ∧ follow = false then .ok (.link target)
          else next (if isAbsolute target then [] else place) (splitSep target ++ rest)
      | .ok .dir => tree.walkWith follow next (place ++ [name]) rest
      | .ok node => if rest = [] then .ok node else .error .notDirectory := by
  rw [walkWith, if_neg (not_or.mpr ⟨hname.ne_nil, hname.ne_dot⟩), if_neg hname.ne_dots]

-- Through directories the system comes to the place that the path names.
theorem walkWith_append (follow : Bool) (next : Place → List PyStr → Except Failure FileNode)
    (start way rest : List PyStr) (h : tree.Opens (start ++ way)) :
    tree.walkWith follow next start (way ++ rest) = tree.walkWith follow next (start ++ way) rest := by
  induction way using List.reverseRecOn generalizing rest with
  | nil => rw [List.append_nil, List.nil_append]
  | append_singleton way name ih =>
      rw [← List.append_assoc] at h
      obtain ⟨hopens, hname⟩ := Opens.init tree h
      have hdir : tree.look (start ++ way ++ [name]) = .ok .dir := h.resolve_left (by simp)
      rw [List.append_assoc, ih ([name] ++ rest) hopens, List.singleton_append,
        walkWith_part _ _ _ _ _ _ hname.toIsPart, hdir, List.append_assoc]

theorem exists_walkWith (follow : Bool) (links : Nat) : ∃ next, tree.walk follow links = tree.walkWith follow next := by
  cases links with
  | zero => exact ⟨_, rfl⟩
  | succ links => exact ⟨_, rfl⟩

-- The last step of the way.
theorem walk_last (follow : Bool) (links : Nat) (place : Place) (name : PyStr) (h : tree.Opens place)
    (hname : IsPart name) (hlook : follow = false ∨ ∀ target, tree.look (place ++ [name]) ≠ .ok (.link target)) :
    tree.walk follow links [] (place ++ [name]) = tree.look (place ++ [name]) := by
  obtain ⟨next, hnext⟩ := tree.exists_walkWith follow links
  rw [hnext, walkWith_append _ _ _ [] place [name] h, List.nil_append, walkWith_part _ _ _ _ _ _ hname]
  split
  next e he => rw [he]
  next target ht => rw [if_pos ⟨rfl, hlook.resolve_right fun hno => hno target ht⟩, ht]
  next hd => rw [walkWith]
  next node _ _ hn => rw [if_pos rfl, hn]

-- In a directory `lstat` finds the file of the name.
theorem lstat_eq (place : Place) (name : PyStr) (h : tree.Opens place) (hname : IsPart name) :
    tree.lstat (place ++ [name]) = tree.look (place ++ [name]) :=
  tree.walk_last false maxLinks place name h hname (.inl rfl)

-- Nothing lies under a file.
theorem lstat_under_file (place : Place) (name : PyStr) (node : FileNode) (h : tree.look place = .ok node)
    (hdir : node ≠ .dir) (hlink : ∀ target, node ≠ .link target) (hname : IsPart name) :
    ∃ e, tree.lstat (place ++ [name]) = .error e := by
  rcases List.eq_nil_or_concat place with rfl | ⟨way, last, rfl⟩
  · rw [lstat_eq _ _ _ (.inl rfl) hname]
    cases hlook : tree.look ([] ++ [name]) with
    | error e => exact ⟨e, rfl⟩
    | ok found =>
        have hparent := tree.parent _ _ _ hlook
        rw [h] at hparent
        exact absurd (Except.ok.inj hparent) hdir
  · rw [List.concat_eq_append] at h ⊢
    obtain ⟨next, hnext⟩ := tree.exists_walkWith false maxLinks
    have hlast := (tree.named _ _ _ h).toIsPart
    refine ⟨.notDirectory, ?_⟩
    rw [lstat, hnext, List.append_assoc, walkWith_append _ _ _ [] way _ (tree.opens_of_look _ _ _ h),
      List.nil_append, List.singleton_append, walkWith_part _ _ _ _ _ _ hlast, h]
    cases node with
    | file size => rfl
    | dir => exact absurd rfl hdir
    | link target => exact absurd rfl (hlink target)
    | special => rfl

-- A path on which `lstat` finds a file and no link at every part.
def Direct (path : Place) : Prop :=
  ∀ way, way ≠ [] → way <+: path → ∃ node, tree.lstat way = .ok node ∧ ∀ target, node ≠ .link target

theorem lstat_nil : tree.lstat [] = tree.look [] := by
  obtain ⟨next, hnext⟩ := tree.exists_walkWith false maxLinks
  rw [lstat, hnext, walkWith]

theorem Direct.look {path : Place} (h : tree.Direct path) (hparts : ∀ name ∈ path, IsPart name) :
    tree.lstat path = tree.look path := by
  induction path using List.reverseRecOn with
  | nil => exact tree.lstat_nil
  | append_singleton way name ih =>
      have hname : IsPart name := hparts name (List.mem_append_right way (List.mem_singleton_self name))
      by_cases hnil : way = []
      · exact lstat_eq tree way name (.inl hnil) hname
      · have hbefore : tree.Direct way :=
          fun place hplace hle => h place hplace (hle.trans (List.prefix_append way [name]))
        have hway := ih hbefore (fun n hn => hparts n (List.mem_append_left [name] hn))
        obtain ⟨node, hnode, hlink⟩ := hbefore way hnil List.prefix_rfl
        by_cases hdir : node = .dir
        · exact lstat_eq tree way name (.inr (by rw [← hway, hnode, hdir])) hname
        · obtain ⟨e, he⟩ := tree.lstat_under_file way name node (by rw [← hway, hnode]) hdir hlink hname
          obtain ⟨found, hfound, -⟩ := h (way ++ [name]) (by simp) List.prefix_rfl
          rw [he] at hfound
          cases hfound

-- A file that is no link is at the end of such a path.
theorem direct_of_look (path : Place) (node : FileNode) (h : tree.look path = .ok node)
    (hlink : ∀ target, node ≠ .link target) : tree.Direct path := by
  intro way hne hway
  obtain ⟨rest, rfl⟩ := hway
  obtain ⟨found, hfound, hplain⟩ : ∃ found, tree.look way = .ok found ∧ ∀ target, found ≠ .link target := by
    by_cases hrest : rest = []
    · rw [hrest, List.append_nil] at h
      exact ⟨node, h, hlink⟩
    · exact ⟨.dir, tree.look_dir_of_look way rest node h hrest, fun target => by simp⟩
  refine ⟨found, ?_, hplain⟩
  rcases List.eq_nil_or_concat way with rfl | ⟨start, last, rfl⟩
  · exact absurd rfl hne
  · rw [List.concat_eq_append] at hfound ⊢
    rw [lstat_eq tree start last (tree.opens_of_look _ _ _ hfound) (tree.named _ _ _ hfound).toIsPart, hfound]

theorem Direct.stat {path : Place} (h : tree.Direct path) (hparts : ∀ name ∈ path, IsPart name) :
    tree.stat path = tree.look path := by
  have hlook := h.look tree hparts
  rcases List.eq_nil_or_concat path with rfl | ⟨way, name, rfl⟩
  · obtain ⟨next, hnext⟩ := tree.exists_walkWith true maxLinks
    rw [FileTree.stat, hnext, walkWith]
  · rw [List.concat_eq_append] at h hlook hparts ⊢
    obtain ⟨node, hnode, hlink⟩ := h (way ++ [name]) (by simp) List.prefix_rfl
    have hname : IsPart name := hparts name (List.mem_append_right way (List.mem_singleton_self name))
    rw [hnode] at hlook
    refine tree.walk_last true maxLinks way name (tree.opens_of_look way name node hlook.symm) hname (.inr ?_)
    intro target ht
    rw [ht] at hlook
    exact hlink target (Except.ok.inj hlook)

theorem exists_realWith (depth : Nat) : ∃ next, tree.realPath depth = tree.realWith next := by
  cases depth with
  | zero => exact ⟨_, rfl⟩
  | succ depth => exact ⟨_, rfl⟩

theorem realWith_error (next : Place → List PyStr → Except Failure Place) (place : Place) (name : PyStr)
    (rest : List PyStr) (e : Failure) (hname : IsPart name) (h : tree.lstat (place ++ [name]) = .error e) :
    tree.realWith next place (name :: rest) = .error e := by
  rw [realWith, if_neg (not_or.mpr ⟨hname.ne_nil, hname.ne_dot⟩), if_neg hname.ne_dots, h]

theorem realWith_ok (next : Place → List PyStr → Except Failure Place) (place : Place) (name : PyStr)
    (rest : List PyStr) (node : FileNode) (hname : IsPart name) (h : tree.lstat (place ++ [name]) = .ok node)
    (hlink : ∀ target, node ≠ .link target) :
    tree.realWith next place (name :: rest) = tree.realWith next (place ++ [name]) rest := by
  rw [realWith, if_neg (not_or.mpr ⟨hname.ne_nil, hname.ne_dot⟩), if_neg hname.ne_dots, h]
  cases node with
  | link target => exact absurd rfl (hlink target)
  | _ => rfl

-- A path without links resolves to itself if there is a file at every part of it.
theorem realWith_eq_ok_iff (next : Place → List PyStr → Except Failure Place) (place rest resolved : List PyStr)
    (hparts : ∀ name ∈ rest, IsPart name)
    (hlink : ∀ way, way ≠ [] → way <+: rest → ∀ target, tree.lstat (place ++ way) ≠ .ok (.link target)) :
    tree.realWith next place rest = .ok resolved ↔
      resolved = place ++ rest ∧ ∀ way, way ≠ [] → way <+: rest → ∃ node, tree.lstat (place ++ way) = .ok node := by
  induction rest generalizing place with
  | nil =>
      rw [realWith, List.append_nil]
      refine ⟨fun h => ⟨(Except.ok.inj h).symm, fun way hne hway => absurd (List.prefix_nil.mp hway) hne⟩, ?_⟩
      rintro ⟨rfl, -⟩
      rfl
  | cons name rest ih =>
      have hstep : ∀ way, way <+: rest → name :: way <+: name :: rest := fun way hway =>
        List.cons_prefix_cons.mpr ⟨rfl, hway⟩
      have hsplit : ∀ way : Place, place ++ [name] ++ way = place ++ name :: way := fun way => by
        rw [List.append_assoc, List.singleton_append]
      have hrest := ih (place ++ [name]) (fun n hn => hparts n (List.mem_cons_of_mem name hn)) (by
        intro way _ hway target
        rw [hsplit]
        exact hlink (name :: way) (by simp) (hstep way hway) target)
      have hname := hparts name List.mem_cons_self
      cases hlook : tree.lstat (place ++ [name]) with
      | error e =>
          rw [realWith_error tree next place name rest e hname hlook]
          refine ⟨fun h => (by cases h), fun ⟨_, h⟩ => ?_⟩
          obtain ⟨node, hnode⟩ := h [name] (by simp) (hstep [] List.nil_prefix)
          rw [hlook] at hnode
          cases hnode
      | ok node =>
          have hplain : ∀ target, node ≠ .link target := by
            rintro target rfl
            exact hlink [name] (by simp) (hstep [] List.nil_prefix) target hlook
          rw [realWith_ok tree next place name rest node hname hlook hplain, hrest, hsplit]
          refine and_congr_right fun _ => ⟨fun h way hne hway => ?_, fun h way hne hway => ?_⟩
          · cases way with
            | nil => exact absurd rfl hne
            | cons first way =>
                obtain ⟨rfl, hbehind⟩ := List.cons_prefix_cons.mp hway
                by_cases hnil : way = []
                · rw [hnil]
                  exact ⟨node, hlook⟩
                · rw [← hsplit]
                  exact h way hnil hbehind
          · rw [hsplit]
            exact h (name :: way) (by simp) (hstep way hway)

end Direct

end FileTree

end V91Core.Python
