import V91Core.Python.Text
import Mathlib.Data.List.DropRight
import Mathlib.Data.List.Infix

namespace V91Core.Python

-- An item of a file name pattern.
inductive GlobItem where
  | star
  | one
  | set (negated : Bool) (ranges : List (CodePoint × CodePoint))
  | char (c : CodePoint)

namespace GlobItem

-- The ranges of a set. One with its ends the wrong way round holds nothing.
def ranges : PyStr → List (CodePoint × CodePoint)
  | a :: dash :: b :: rest =>
      if dash = cp '-' then (a, b) :: ranges rest else (a, a) :: ranges (dash :: b :: rest)
  | a :: rest => (a, a) :: ranges rest
  | [] => []

def ofSet (text : PyStr) : GlobItem :=
  if text.head? = some (cp '!') then .set true (ranges text.tail) else .set false (ranges text)

-- What stands between `[` and the `]` that closes it, which is not the first character.
def setText (rest : PyStr) : Option PyStr :=
  let negation := if rest.head? = some (cp '!') then 1 else 0
  let start := negation + if rest[negation]? = some (cp ']') then 1 else 0
  ((rest.drop start).findIdx? (· = cp ']')).map fun n => rest.take (start + n)

-- The items of a pattern behind its first `skip` characters.
def translateFrom : Nat → PyStr → List GlobItem
  | _, [] => []
  | skip + 1, _ :: rest => translateFrom skip rest
  | 0, c :: rest =>
      if c = cp '*' then .star :: translateFrom 0 rest
      else if c = cp '?' then .one :: translateFrom 0 rest
      else if c = cp '[' then
        match setText rest with
        | some text => ofSet text :: translateFrom (text.length + 1) rest
        | none => .char c :: translateFrom 0 rest
      else .char c :: translateFrom 0 rest

def accepts : List GlobItem → PyStr → Bool
  | [], name => name.isEmpty
  | .star :: items, name => name.tails.any (accepts items)
  | .one :: items, _ :: name => accepts items name
  | .set negated ranges :: items, c :: name =>
      (ranges.any (fun range => range.1.val ≤ c.val ∧ c.val ≤ range.2.val) != negated) && accepts items name
  | .char c :: items, d :: name => c = d && accepts items name
  | _ :: _, [] => false

end GlobItem

-- `fnmatch.fnmatch` where the case matters.
def fnmatch (name pattern : PyStr) : Bool := GlobItem.accepts (GlobItem.translateFrom 0 pattern) name

-- What the file system answers about a path: the names in a directory, each with whether it
-- is a directory itself, and whether there is something, or a directory. The names are those
-- that were read before an error.
structure PathView where
  scandir : PyStr → List (PyStr × Bool)
  lexists : PyStr → Bool
  isDir : PyStr → Bool

section Paths

-- `os.path.split`.
def splitPath (path : PyStr) : PyStr × PyStr :=
  let head := path.rdropWhile (· ≠ cp '/')
  (if head.all (· = cp '/') then head else head.rdropWhile (· = cp '/'), path.rtakeWhile (· ≠ cp '/'))

-- `os.path.join`.
def joinPath (path name : PyStr) : PyStr :=
  if name.head? = some (cp '/') then name
  else if path = [] ∨ path.getLast? = some (cp '/') then path ++ name
  else path ++ cp '/' :: name

theorem splitPath_prefix (path : PyStr) : (splitPath path).1 <+: path := by
  have hhead := path.rdropWhile_prefix (· ≠ cp '/')
  unfold splitPath
  dsimp only
  split
  · exact hhead
  · exact (List.rdropWhile_prefix _ _).trans hhead

end Paths

namespace PathView

variable (view : PathView)

def hasMagic (text : PyStr) : Bool := text.any fun c => c = cp '*' || c = cp '?' || c = cp '['

def isHidden (name : PyStr) : Bool := name.head? = some (cp '.')

-- The names in a directory that a pattern with wildcards matches.
def glob1 (dirname pattern : PyStr) (dirOnly : Bool) : List PyStr :=
  let entries := view.scandir (if dirname = [] then py "." else dirname)
  let names := (entries.filter fun entry => !dirOnly || entry.2).map Prod.fst
  names.filter fun name => (isHidden pattern || !isHidden name) && fnmatch name pattern

-- A name without wildcards stands for itself.
def glob0 (dirname basename : PyStr) : List PyStr :=
  if basename = [] then if view.isDir dirname then [basename] else []
  else if view.lexists (if dirname = [] then basename else joinPath dirname basename) then [basename] else []

-- The directory part of a pattern may be a pattern as well.
def iglob (pathname : PyStr) (dirOnly : Bool) : List PyStr :=
  let dirname := (splitPath pathname).1
  let basename := (splitPath pathname).2
  if !hasMagic pathname then
    if basename = [] then if view.isDir dirname then [pathname] else []
    else if view.lexists pathname then [pathname] else []
  else if dirname = [] then view.glob1 dirname basename dirOnly
  else
    let dirs := if dirname ≠ pathname ∧ hasMagic dirname = true then iglob dirname true else [dirname]
    let inDir := fun dir => if hasMagic basename then view.glob1 dir basename dirOnly else view.glob0 dir basename
    dirs.flatMap fun dir => (inDir dir).map (joinPath dir)
termination_by pathname.length
decreasing_by
  rename_i h
  obtain ⟨rest, hrest⟩ := splitPath_prefix pathname
  have hne : rest ≠ [] := by
    rintro rfl
    exact h.1 (by simpa using hrest)
  have hlength := congrArg List.length hrest
  rw [List.length_append] at hlength
  have := List.length_pos_iff.mpr hne
  omega

def glob (pathname : PyStr) : List PyStr := view.iglob pathname false

end PathView

section Plain

theorem accepts_chars (text name : PyStr) : GlobItem.accepts (text.map .char) name = true ↔ text = name := by
  induction text generalizing name with
  | nil => cases name <;> simp [GlobItem.accepts]
  | cons c text ih =>
      cases name with
      | nil => simp [GlobItem.accepts]
      | cons d name =>
          rw [List.map_cons, GlobItem.accepts, Bool.and_eq_true, decide_eq_true_iff, ih, List.cons.injEq]

theorem translateFrom_plain (text : PyStr) (h : PathView.hasMagic text = false) :
    GlobItem.translateFrom 0 text = text.map .char := by
  induction text with
  | nil => rfl
  | cons c text ih =>
      simp only [PathView.hasMagic, List.any_cons, Bool.or_eq_false_iff, decide_eq_false_iff_not] at h
      obtain ⟨⟨⟨hstar, hone⟩, hset⟩, hrest⟩ := h
      rw [GlobItem.translateFrom, if_neg hstar, if_neg hone, if_neg hset, List.map_cons, ih hrest]

-- `*` in front of a plain text asks for the ending.
theorem fnmatch_star (ending name : PyStr) (h : PathView.hasMagic ending = false) :
    fnmatch name (cp '*' :: ending) = true ↔ ending <:+ name := by
  rw [fnmatch, GlobItem.translateFrom, if_pos rfl, translateFrom_plain ending h, GlobItem.accepts, List.any_eq_true]
  simp only [List.mem_tails, accepts_chars]
  constructor
  · rintro ⟨rest, hrest, rfl⟩
    exact hrest
  · intro hending
    exact ⟨ending, hending, rfl⟩

theorem splitPath_join (dir name : PyStr) (hdir : dir ≠ []) (hlast : dir.getLast? ≠ some (cp '/'))
    (hname : ∀ c ∈ name, c ≠ cp '/') : splitPath (joinPath dir name) = (dir, name) := by
  have hjoin : joinPath dir name = dir ++ [cp '/'] ++ name := by
    have hhead : name.head? ≠ some (cp '/') := fun h => hname _ (List.mem_of_mem_head? h) rfl
    rw [joinPath, if_neg hhead, if_neg (not_or.mpr ⟨hdir, hlast⟩), List.append_assoc, List.singleton_append]
  have hhead : (dir ++ [cp '/'] ++ name).rdropWhile (· ≠ cp '/') = dir ++ [cp '/'] := by
    rw [List.rdropWhile, List.reverse_append, List.dropWhile_append_of_pos (by simpa using hname)]
    simp
  have htail : (dir ++ [cp '/'] ++ name).rtakeWhile (· ≠ cp '/') = name := by
    rw [List.rtakeWhile, List.reverse_append, List.takeWhile_append_of_pos (by simpa using hname)]
    simp
  obtain ⟨front, last, rfl⟩ := List.eq_nil_or_concat dir |>.resolve_left hdir
  have hne : last ≠ cp '/' := fun h => hlast (by simp [h])
  have hstrip : (front.concat last ++ [cp '/']).rdropWhile (· = cp '/') = front.concat last := by
    rw [List.rdropWhile_concat_pos _ _ _ (by simp), List.concat_eq_append,
      List.rdropWhile_concat_neg _ _ _ (by simpa using hne)]
  have hall : (front.concat last ++ [cp '/']).all (· = cp '/') = false := by simp [hne]
  rw [hjoin, splitPath, hhead, htail, hall, hstrip]
  rfl

-- In a directory without wildcards in its name `*` finds the names with an ending, but not the
-- hidden ones.
theorem PathView.glob_plain (view : PathView) (dir ending : PyStr) (hdir : dir ≠ [])
    (hlast : dir.getLast? ≠ some (cp '/')) (hmagic : hasMagic dir = false) (hending : hasMagic ending = false)
    (hname : ∀ c ∈ ending, c ≠ cp '/') (path : PyStr) : path ∈ view.glob (joinPath dir (cp '*' :: ending)) ↔
      ∃ entry ∈ view.scandir dir, isHidden entry.1 = false ∧ ending <:+ entry.1 ∧ path = joinPath dir entry.1 := by
  have hsplit := splitPath_join dir (cp '*' :: ending) hdir hlast
    (List.forall_mem_cons.mpr ⟨by decide, hname⟩)
  have hstar : hasMagic (cp '*' :: ending) = true := by simp [hasMagic]
  have hhead : (cp '*' :: ending).head? ≠ some (cp '/') := by
    rw [List.head?_cons, ne_eq, Option.some.injEq]
    decide
  have hpattern : hasMagic (joinPath dir (cp '*' :: ending)) = true := by
    rw [joinPath, if_neg hhead, if_neg (not_or.mpr ⟨hdir, hlast⟩), hasMagic, List.any_append, Bool.or_eq_true]
    exact .inr (by simp)
  have hhidden : isHidden (cp '*' :: ending) = false := by
    rw [isHidden, List.head?_cons]
    decide
  rw [glob, iglob, hsplit, hpattern, hstar, hmagic]
  simp only [Bool.not_true, Bool.false_eq_true, if_false, if_true, if_neg hdir, and_false, List.flatMap_singleton,
    glob1, hhidden,
    Bool.false_or, Bool.not_false, Bool.true_or, List.filter_true, List.mem_map, List.mem_filter, Bool.and_eq_true,
    Bool.not_eq_true', fnmatch_star ending _ hending]
  constructor
  · rintro ⟨_, ⟨⟨entry, hentry, rfl⟩, hshown, hends⟩, rfl⟩
    exact ⟨entry, hentry, hshown, hends, rfl⟩
  · rintro ⟨entry, hentry, hshown, hends, rfl⟩
    exact ⟨entry.1, ⟨⟨entry, hentry, rfl⟩, hshown, hends⟩, rfl⟩

end Plain

end V91Core.Python
