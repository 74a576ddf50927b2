import V91Core.Json.Str
import V91Core.Python.Numeric

namespace V91Core.Python

-- An object of a class that the program does not look into. It is no mapping, and
-- `json.dumps` refuses it.
structure Foreign where
  hashable : Bool
  truthy : Bool
  str : PyStr
  repr : PyStr
deriving DecidableEq

-- A Python value. A dict keeps its keys in insertion order, and they are unique.
inductive PyData where
  | none
  | bool (b : Bool)
  | int (n : Int)
  | float (x : Float)
  | str (s : PyStr)
  | bytes (bs : Bytes)
  | list (items : List PyData)
  | tuple (items : List PyData)
  | dict (entries : List (PyData × PyData))
  | foreign (object : Foreign)

namespace PyData

mutual

-- JSON data as Python values.
def ofJson : Json → PyData
  | .null => .none
  | .bool b => .bool b
  | .int n => .int n
  | .float x => .float x
  | .str s => .str s
  | .arr items => .list (ofItems items)
  | .obj fields => .dict (ofFields fields)

def ofItems : List Json → List PyData
  | [] => []
  | j :: items => ofJson j :: ofItems items

def ofFields : List (PyStr × Json) → List (PyData × PyData)
  | [] => []
  | (k, v) :: fields => (.str k, ofJson v) :: ofFields fields

end

@[simp] theorem ofItems_eq (items : List Json) : ofItems items = items.map ofJson := by
  induction items with
  | nil => rfl
  | cons j items ih => rw [ofItems, ih, List.map_cons]

@[simp] theorem ofFields_eq (fields : List (PyStr × Json)) :
    ofFields fields = fields.map fun f => (.str f.1, ofJson f.2) := by
  induction fields with
  | nil => rfl
  | cons f fields ih => rw [ofFields, ih, List.map_cons]

-- `bool(value)`.
def truthy : PyData → Bool
  | .none => false
  | .bool b => b
  | .int n => n ≠ 0
  | .float x =>
      match exactDecimal x with
      | some d => d.digits ≠ 0
      | .none => true
  | .str s => !s.isEmpty
  | .bytes bs => !bs.isEmpty
  | .list items | .tuple items => !items.isEmpty
  | .dict entries => !entries.isEmpty
  | .foreign object => object.truthy

mutual

def hashable : PyData → Bool
  | .list _ | .dict _ => false
  | .tuple items => allHashable items
  | .foreign object => object.hashable
  | _ => true

def allHashable : List PyData → Bool
  | [] => true
  | item :: items => hashable item && allHashable items

end

-- `value is True`.
def isTrue : PyData → Bool
  | .bool b => b
  | _ => false

-- A text that is not only whitespace: `isinstance(value, str) and value.strip()`.
def nonBlank? : PyData → Option PyStr
  | .str s => if strip s = [] then .none else some s
  | _ => .none

-- `value == text`.
def isStr (text : PyStr) : PyData → Bool
  | .str s => s = text
  | _ => false

-- `value == n` for an int: bools and floats compare by their numeric value.
def eqInt (n : Int) : PyData → Bool
  | .int m => m = n
  | .bool b => (if b then 1 else 0) = n
  | .float x => Json.eqInt n (.float x)
  | _ => false

-- `isinstance(value, bool)`.
def isBool : PyData → Bool
  | .bool _ => true
  | _ => false

def ofNumber : PyNum → PyData
  | .int n => .int n
  | .float x => .float x

-- `isinstance(value, (int, float)) and not isinstance(value, bool)`.
def number? : PyData → Option PyNum
  | .int n => some (.int n)
  | .float x => some (.float x)
  | _ => .none

-- The text that a dict lookup finds its key by. A value that is not hashable
-- raises `TypeError`, and any other one equals no text.
def lookupKey (value : PyData) : Except PyExc (Option PyStr) :=
  if value.hashable then
    .ok (match value with
      | .str s => some s
      | _ => .none)
  else .error .typeError

-- A bool counts as a number where values are compared.
def asNumber? : PyData → Option PyNum
  | .bool b => some (.int (if b then 1 else 0))
  | value => value.number?

mutual

-- `a == b` for keys of a dict. Objects of foreign classes are the same if they look the same.
def sameKey : PyData → PyData → Bool
  | .none, .none => true
  | .str s, .str t => s = t
  | .bytes bs, .bytes cs => bs = cs
  | .tuple items, .tuple others => sameItems items others
  | .foreign object, .foreign other => object = other
  | a, b =>
      match a.asNumber?, b.asNumber? with
      | some m, some n => m.le n && n.le m
      | _, _ => false

def sameItems : List PyData → List PyData → Bool
  | [], [] => true
  | a :: items, b :: others => sameKey a b && sameItems items others
  | _, _ => false

end

-- A text is the same key as itself only.
theorem sameKey_str (value : PyData) (s : PyStr) : value.sameKey (.str s) = true ↔ value = .str s := by
  cases value <;> simp [sameKey, asNumber?, number?]

theorem str_sameKey (value : PyData) (s : PyStr) : (PyData.str s).sameKey value = true ↔ value = .str s := by
  cases value <;> simp [sameKey, asNumber?, number?, eq_comm]

section Dicts

variable (key : PyStr)

-- `entries.get(key)`.
def get? : List (PyData × PyData) → Option PyData
  | [] => .none
  | (k, v) :: entries => if k.isStr key then some v else get? entries

-- The dict without this key.
def erase (entries : List (PyData × PyData)) : List (PyData × PyData) :=
  entries.filter fun entry => !entry.1.isStr key

-- `entries[key] = value`.
def insert (value : PyData) : List (PyData × PyData) → List (PyData × PyData)
  | [] => [(.str key, value)]
  | (k, v) :: entries => if k.isStr key then (k, value) :: entries else (k, v) :: insert value entries

theorem get?_insert_self (value : PyData) (entries : List (PyData × PyData)) :
    get? key (insert key value entries) = some value := by
  induction entries with
  | nil => simp [insert, get?, isStr]
  | cons entry entries ih =>
      obtain ⟨k, v⟩ := entry
      by_cases hk : k.isStr key = true
      · simp [insert, get?, hk]
      · simp [insert, get?, hk, ih]

theorem get?_insert_of_ne (other : PyStr) (value : PyData) (entries : List (PyData × PyData))
    (h : other ≠ key) : get? other (insert key value entries) = get? other entries := by
  have hkey : (PyData.str key).isStr other = false := by simpa [isStr] using h.symm
  induction entries with
  | nil => simp [insert, get?, hkey]
  | cons entry entries ih =>
      obtain ⟨k, v⟩ := entry
      by_cases hk : k.isStr key = true
      · have hother : k.isStr other = false := by
          cases k <;> simp_all [isStr]
        simp [insert, get?, hk, hother]
      · simp [insert, get?, hk, ih]

theorem get?_erase_of_ne (other : PyStr) (entries : List (PyData × PyData)) (h : other ≠ key) :
    get? other (erase key entries) = get? other entries := by
  induction entries with
  | nil => rfl
  | cons entry entries ih =>
      obtain ⟨k, v⟩ := entry
      by_cases hk : k.isStr key = true
      · have hother : k.isStr other = false := by
          cases k <;> simp_all [isStr, Ne.symm h]
        rw [erase, List.filter_cons_of_neg (by simp [hk]), get?, if_neg (by simp [hother])]
        exact ih
      · rw [erase, List.filter_cons_of_pos (by simpa using hk), get?, get?]
        split
        · rfl
        · exact ih

theorem mem_of_get? (entries : List (PyData × PyData)) (value : PyData) (h : get? key entries = some value) :
    ∃ k, (k, value) ∈ entries := by
  induction entries with
  | nil => cases h
  | cons entry entries ih =>
      obtain ⟨k, v⟩ := entry
      rw [get?] at h
      split at h
      · obtain rfl := Option.some.inj h
        exact ⟨k, List.mem_cons_self⟩
      · obtain ⟨k', hk'⟩ := ih h
        exact ⟨k', List.mem_cons_of_mem _ hk'⟩

theorem get?_ofFields (fields : List (PyStr × Json)) :
    get? key (ofFields fields) = (Json.lookup key fields).map ofJson := by
  induction fields with
  | nil => rfl
  | cons f fields ih =>
      obtain ⟨k, v⟩ := f
      simp only [ofFields, get?, Json.lookup, isStr, decide_eq_true_eq, ih]
      split <;> rfl

theorem erase_ofFields (fields : List (PyStr × Json)) :
    erase key (ofFields fields) = ofFields (Json.erase key fields) := by
  induction fields with
  | nil => rfl
  | cons f fields ih =>
      obtain ⟨k, v⟩ := f
      by_cases hk : k = key
      · rw [ofFields, erase, Json.erase, List.filter_cons_of_neg (by simp [isStr, hk]),
          List.filter_cons_of_neg (by simp [hk])]
        exact ih
      · rw [ofFields, erase, Json.erase, List.filter_cons_of_pos (by simp [isStr, hk]),
          List.filter_cons_of_pos (by simp [hk])]
        exact congrArg ((PyData.str k, ofJson v) :: ·) ih

theorem insert_ofFields (value : Json) (fields : List (PyStr × Json)) :
    insert key (ofJson value) (ofFields fields) = ofFields (Json.insert key value fields) := by
  induction fields with
  | nil => rfl
  | cons f fields ih =>
      obtain ⟨k, v⟩ := f
      by_cases hk : k = key
      · simp [ofFields, insert, Json.insert, isStr, hk]
      · simp only [ofFields, insert, Json.insert, isStr, hk, decide_false, Bool.false_eq_true, if_false]
        rw [ih]

end Dicts

-- `str(n)` and `repr(n)` refuse an int of too many digits.
def intRepr (n : Int) : Except PyExc PyStr :=
  if (natText n.natAbs).length ≤ Json.maxIntDigits then .ok (intText n)
  else .error (.valueError (py "Exceeds the limit for integer string conversion"))

def bytesReprChar (quote b : UInt8) : PyStr :=
  if b = quote ∨ b = 0x5C then [cp '\\', chr b.toNat]
  else if b = 0x09 then [cp '\\', cp 't']
  else if b = 0x0A then [cp '\\', cp 'n']
  else if b = 0x0D then [cp '\\', cp 'r']
  else if b < 0x20 ∨ 0x7F ≤ b then [cp '\\', cp 'x'] ++ hexByte b
  else [chr b.toNat]

def bytesRepr (bs : Bytes) : PyStr :=
  let quote : UInt8 := if 0x27 ∈ bs ∧ 0x22 ∉ bs then 0x22 else 0x27
  cp 'b' :: chr quote.toNat :: (bs.flatMap (bytesReprChar quote) ++ [chr quote.toNat])

section Repr

variable (rt : Runtime)

mutual

-- `repr(value)`, where `limit` is the number of nested containers that the
-- recursion limit leaves room for.
def reprAt (limit : Nat) : PyData → Except PyExc PyStr
  | .none => .ok (py "None")
  | .bool b => .ok (if b then py "True" else py "False")
  | .int n => intRepr n
  | .float x => .ok (Json.reprFloat x)
  | .str s => .ok (Json.reprStr rt.printable s)
  | .bytes bs => .ok (bytesRepr bs)
  | .list items =>
      match limit with
      | 0 => .error .recursionError
      | limit + 1 =>
          (Json.sequence (reprItems limit items)).map fun texts =>
            cp '[' :: (Json.joinWith [cp ',', cp ' '] texts ++ [cp ']'])
  | .tuple items =>
      match limit with
      | 0 => .error .recursionError
      | limit + 1 =>
          (Json.sequence (reprItems limit items)).map fun texts =>
            cp '(' :: (Json.joinWith [cp ',', cp ' '] texts ++
              if texts.length = 1 then [cp ',', cp ')'] else [cp ')'])
  | .dict entries =>
      match limit with
      | 0 => .error .recursionError
      | limit + 1 =>
          (Json.sequence (reprEntries limit entries)).map fun texts =>
            cp '{' :: (Json.joinWith [cp ',', cp ' '] texts ++ [cp '}'])
  | .foreign object => .ok object.repr

def reprItems (limit : Nat) : List PyData → List (Except PyExc PyStr)
  | [] => []
  | item :: items => reprAt limit item :: reprItems limit items

def reprEntries (limit : Nat) : List (PyData × PyData) → List (Except PyExc PyStr)
  | [] => []
  | (k, v) :: entries =>
      (do
        let key ← reprAt limit k
        let value ← reprAt limit v
        .ok (key ++ [cp ':', cp ' '] ++ value)) :: reprEntries limit entries

end

-- `repr(value)`.
def repr (value : PyData) : Except PyExc PyStr := reprAt rt rt.nesting value

-- `str(value)`, which is also what an f-string inserts.
def toStr : PyData → Except PyExc PyStr
  | .str s => .ok s
  | .foreign object => .ok object.str
  | value => value.repr rt

end Repr

section Dumps

-- The text of a dict key in JSON.
def keyText (st : Json.Style) : PyData → Except PyExc PyStr
  | .str s => .ok (Json.encodeString st.ensureAscii s)
  | .none => .ok (py "\"null\"")
  | .bool b => .ok (if b then py "\"true\"" else py "\"false\"")
  | .int n => (intRepr n).map fun text => cp '"' :: (text ++ [cp '"'])
  | .float x =>
      if st.allowNan || Json.isFinite x then .ok (cp '"' :: (Json.floatText x ++ [cp '"']))
      else .error (.valueError (py "Out of range float values are not JSON compliant"))
  | _ => .error .typeError

def strKeys : List (PyData × α) → Option (List (PyStr × α))
  | [] => some []
  | (.str s, a) :: entries => (strKeys entries).map ((s, a) :: ·)
  | _ => .none

-- A bool is compared as the number it is.
def numKeys : List (PyData × α) → Option (List (PyNum × PyData × α))
  | [] => some []
  | (.int n, a) :: entries => (numKeys entries).map ((.int n, .int n, a) :: ·)
  | (.float x, a) :: entries => (numKeys entries).map ((.float x, .float x, a) :: ·)
  | (.bool b, a) :: entries => (numKeys entries).map ((.int b.toNat, .bool b, a) :: ·)
  | _ => .none

-- `sorted(entries.items())`: strings and numbers do not compare with each other.
def sortEntries (entries : List (PyData × α)) : Except PyExc (List (PyData × α)) :=
  match strKeys entries, numKeys entries with
  | some fields, _ => .ok ((Json.sortKeys fields).map fun f => (.str f.1, f.2))
  | .none, some fields => .ok ((fields.insertionSort fun f g => f.1.le g.1).map Prod.snd)
  | .none, .none => if entries.length ≤ 1 then .ok entries else .error .typeError

def orderEntries (st : Json.Style) (entries : List (PyData × α)) : Except PyExc (List (PyData × α)) :=
  if st.sortKeys then sortEntries entries else .ok entries

def entryText (st : Json.Style) (entry : PyData × Except PyExc PyStr) : Except PyExc PyStr := do
  let key ← keyText st entry.1
  let value ← entry.2
  .ok (key ++ st.keySep ++ value)

mutual

-- `json.dumps(value)`.
def dumpsAt (st : Json.Style) (limit : Nat) : PyData → Except PyExc PyStr
  | .none => .ok (py "null")
  | .bool b => .ok (if b then py "true" else py "false")
  | .int n => intRepr n
  | .float x =>
      if st.allowNan || Json.isFinite x then .ok (Json.floatText x)
      else .error (.valueError (py "Out of range float values are not JSON compliant"))
  | .str s => .ok (Json.encodeString st.ensureAscii s)
  | .list items | .tuple items =>
      match limit with
      | 0 => .error .recursionError
      | limit + 1 =>
          (Json.sequence (dumpsItems st limit items)).map fun texts =>
            cp '[' :: (Json.joinWith st.itemSep texts ++ [cp ']'])
  | .dict entries =>
      match limit with
      | 0 => .error .recursionError
      | limit + 1 => do
          let entries ← orderEntries st (dumpsEntries st limit entries)
          let texts ← Json.sequence (entries.map (entryText st))
          .ok (cp '{' :: (Json.joinWith st.itemSep texts ++ [cp '}']))
  | .bytes _ | .foreign _ => .error .typeError

def dumpsItems (st : Json.Style) (limit : Nat) : List PyData → List (Except PyExc PyStr)
  | [] => []
  | item :: items => dumpsAt st limit item :: dumpsItems st limit items

def dumpsEntries (st : Json.Style) (limit : Nat) :
    List (PyData × PyData) → List (PyData × Except PyExc PyStr)
  | [] => []
  | (k, v) :: entries => (k, dumpsAt st limit v) :: dumpsEntries st limit entries

end

def dumps (rt : Runtime) (st : Json.Style) (value : PyData) : Except PyExc PyStr :=
  dumpsAt st rt.nesting value

end Dumps

section OfJson

@[simp] theorem reprItems_eq (rt : Runtime) (limit : Nat) (items : List PyData) :
    reprItems rt limit items = items.map (reprAt rt limit) := by
  induction items with
  | nil => rfl
  | cons item items ih => rw [reprItems, ih, List.map_cons]

@[simp] theorem dumpsItems_eq (st : Json.Style) (limit : Nat) (items : List PyData) :
    dumpsItems st limit items = items.map (dumpsAt st limit) := by
  induction items with
  | nil => rfl
  | cons item items ih => rw [dumpsItems, ih, List.map_cons]

@[simp] theorem dumpsEntries_eq (st : Json.Style) (limit : Nat) (entries : List (PyData × PyData)) :
    dumpsEntries st limit entries = entries.map fun entry => (entry.1, dumpsAt st limit entry.2) := by
  induction entries with
  | nil => rfl
  | cons entry entries ih => rw [dumpsEntries, ih, List.map_cons]

-- The exception of `json.dumps` for JSON data that it refuses.
def encodeFailure : Json.EncodeError → PyExc
  | .recursion => .recursionError
  | .tooManyDigits => .valueError (py "Exceeds the limit for integer string conversion")
  | .notCompliant => .valueError (py "Out of range float values are not JSON compliant")

theorem sequence_mapError (f : ε → ε') (results : List (Except ε α)) :
    Json.sequence (results.map (Except.mapError f)) = (Json.sequence results).mapError f := by
  induction results with
  | nil => rfl
  | cons r results ih =>
      cases r with
      | error e => rfl
      | ok a =>
          simp only [List.map_cons, Except.mapError, Json.sequence, ih]
          cases Json.sequence results <;> rfl

theorem map_mapError (f : ε → ε') (g : α → β) (r : Except ε α) :
    (r.mapError f).map g = (r.map g).mapError f := by
  cases r <;> rfl

theorem strKeys_map (fields : List (PyStr × α)) :
    strKeys (fields.map fun f => (PyData.str f.1, f.2)) = some fields := by
  induction fields with
  | nil => rfl
  | cons f fields ih => rw [List.map_cons, strKeys, ih, Option.map_some]

theorem sortEntries_str (fields : List (PyStr × α)) :
    sortEntries (fields.map fun f => (PyData.str f.1, f.2)) =
      .ok ((Json.sortKeys fields).map fun f => (.str f.1, f.2)) := by
  rw [sortEntries, strKeys_map]

-- JSON data is written as the same text by both encoders.
theorem dumpsAt_ofJson (st : Json.Style) (limit : Nat) (j : Json) :
    dumpsAt st limit (ofJson j) = (Json.encode st limit j).mapError encodeFailure := by
  induction j using Json.ind generalizing limit with
  | bool b => cases b <;> rfl
  | int n =>
      rw [ofJson, dumpsAt, intRepr, Json.encode]
      split <;> rfl
  | float x =>
      rw [ofJson, dumpsAt, Json.encode]
      split <;> rfl
  | arr items ih =>
      cases limit with
      | zero => rfl
      | succ limit =>
          have hitems : (items.map ofJson).map (dumpsAt st limit) =
              (items.map (Json.encode st limit)).map (Except.mapError encodeFailure) := by
            rw [List.map_map, List.map_map]
            exact List.map_congr_left fun j hj => ih j hj limit
          rw [ofJson, dumpsAt, Json.encode, dumpsItems_eq, ofItems_eq, hitems, Json.encodeItems_eq,
            sequence_mapError, map_mapError]
  | obj fields ih =>
      cases limit with
      | zero => rfl
      | succ limit =>
          have hentries : dumpsEntries st limit (ofFields fields) =
              (fields.map fun f => (f.1, (Json.encode st limit f.2).mapError encodeFailure)).map
                fun f => (PyData.str f.1, f.2) := by
            rw [dumpsEntries_eq, ofFields_eq, List.map_map, List.map_map]
            exact List.map_congr_left fun f hf => Prod.ext rfl (ih f hf limit)
          have hsorted : orderEntries st (dumpsEntries st limit (ofFields fields)) =
              .ok ((if st.sortKeys then Json.sortKeys (fields.map fun f => (f.1, Json.encode st limit f.2))
                else fields.map fun f => (f.1, Json.encode st limit f.2)).map
                  fun f => (PyData.str f.1, f.2.mapError encodeFailure)) := by
            have hmap := Json.sortKeys_map
              (fun f : PyStr × Except Json.EncodeError PyStr => (f.1, f.2.mapError encodeFailure))
              (fun _ => rfl) (fields.map fun f => (f.1, Json.encode st limit f.2))
            rw [List.map_map] at hmap
            rw [hentries, orderEntries, sortEntries_str]
            cases st.sortKeys with
            | false =>
                simp only [Bool.false_eq_true, if_false, List.map_map]
                rfl
            | true =>
                simp only [if_true]
                have hfields := congrArg (List.map fun f => (PyData.str f.1, f.2)) hmap
                rw [List.map_map] at hfields
                exact congrArg Except.ok hfields
          have htext : ∀ f : PyStr × Except Json.EncodeError PyStr,
              entryText st (.str f.1, f.2.mapError encodeFailure) =
                (Json.fieldText st f).mapError encodeFailure := by
            rintro ⟨k, v⟩
            cases v <;> rfl
          rw [ofJson, dumpsAt, hsorted, Json.encode, Json.encodeFields_eq]
          generalize (if st.sortKeys then Json.sortKeys (fields.map fun f => (f.1, Json.encode st limit f.2))
            else fields.map fun f => (f.1, Json.encode st limit f.2)) = entries
          have htexts : (entries.map fun f => (PyData.str f.1, f.2.mapError encodeFailure)).map (entryText st) =
              (entries.map (Json.fieldText st)).map (Except.mapError encodeFailure) := by
            rw [List.map_map, List.map_map]
            exact List.map_congr_left fun f _ => htext f
          change (Json.sequence ((entries.map _).map (entryText st)) >>= _) = _
          rw [htexts, sequence_mapError]
          cases Json.sequence (entries.map (Json.fieldText st)) <;> rfl
  | _ => rfl

theorem dumps_ofJson (rt : Runtime) (st : Json.Style) (j : Json) :
    (ofJson j).dumps rt st = Python.dumps rt st j := by
  rw [dumps, dumpsAt_ofJson, Python.dumps]
  cases Json.encode st rt.nesting j with
  | ok text => rfl
  | error e => cases e <;> rfl

-- `repr` gives up on the values that are nested too deeply and on those that
-- contain an int of too many digits.
theorem reprAt_isOk_iff (rt : Runtime) (limit : Nat) (j : Json) :
    (∃ text, reprAt rt limit (ofJson j) = .ok text) ↔ Json.Fits true limit j := by
  have hmap : ∀ (f : List PyStr → PyStr) (r : Except PyExc (List PyStr)),
      (∃ text, r.map f = .ok text) ↔ ∃ texts, r = .ok texts := by
    intro f r
    cases r <;> simp [Except.map]
  induction j using Json.ind generalizing limit with
  | bool b => simp [ofJson, reprAt, Json.Fits]
  | int n => simp only [ofJson, reprAt, intRepr, Json.Fits]; split <;> simp [*]
  | arr items ih =>
      cases limit with
      | zero => simp [ofJson, reprAt, Json.Fits]
      | succ limit =>
          simp only [ofJson, reprAt, Json.Fits, hmap, reprItems_eq, ofItems_eq, Json.sequence_isOk_iff,
            List.forall_mem_map, Nat.add_sub_cancel, Json.fitsItems_iff, Nat.succ_pos, true_and]
          exact forall₂_congr fun j hj => ih j hj limit
  | obj fields ih =>
      cases limit with
      | zero => simp [ofJson, reprAt, Json.Fits]
      | succ limit =>
          have hentries : (∀ r ∈ reprEntries rt limit (ofFields fields), ∃ text, r = .ok text) ↔
              ∀ f ∈ fields, ∃ text, reprAt rt limit (ofJson f.2) = .ok text := by
            clear ih
            induction fields with
            | nil => simp [ofFields, reprEntries]
            | cons f fields ih =>
                obtain ⟨k, v⟩ := f
                rw [ofFields, reprEntries, List.forall_mem_cons, List.forall_mem_cons, ih]
                refine and_congr_left fun _ => ?_
                change (∃ text, (reprAt rt limit (ofJson v) >>= _) = .ok text) ↔ _
                cases reprAt rt limit (ofJson v) <;> simp [bind, Except.bind]
          simp only [ofJson, reprAt, Json.Fits, hmap, Json.sequence_isOk_iff, hentries, Nat.add_sub_cancel,
            Json.fitsFields_iff, Nat.succ_pos, true_and]
          exact forall₂_congr fun f hf => ih f hf limit
  | _ => simp [ofJson, reprAt, Json.Fits]

theorem sequence_error (results : List (Except ε α)) (e : ε) (h : Json.sequence results = .error e) :
    .error e ∈ results := by
  induction results with
  | nil => cases h
  | cons r results ih =>
      cases r with
      | error e' =>
          obtain rfl := Except.error.inj h
          exact List.mem_cons_self
      | ok a =>
          rw [Json.sequence] at h
          cases hrest : Json.sequence results with
          | error e' =>
              rw [hrest] at h
              obtain rfl := Except.error.inj h
              exact List.mem_cons_of_mem _ (ih hrest)
          | ok as =>
              rw [hrest] at h
              cases h

theorem map_eq_error (f : α → β) (r : Except ε α) (e : ε) (h : r.map f = .error e) : r = .error e := by
  cases r with
  | error e' =>
      obtain rfl := Except.error.inj h
      rfl
  | ok a => cases h

-- What `repr` can raise.
theorem reprAt_error (rt : Runtime) (limit : Nat) (j : Json) (e : PyExc)
    (h : reprAt rt limit (ofJson j) = .error e) : (∃ msg, e = .valueError msg) ∨ e = .recursionError := by
  induction j using Json.ind generalizing limit with
  | int n =>
      rw [ofJson, reprAt, intRepr] at h
      split at h
      · cases h
      · exact .inl ⟨_, (Except.error.inj h).symm⟩
  | arr items ih =>
      cases limit with
      | zero => exact .inr (Except.error.inj h).symm
      | succ limit =>
          simp only [ofJson, reprAt, reprItems_eq, ofItems_eq, List.map_map] at h
          obtain ⟨j, hj, hrepr⟩ := List.mem_map.mp (sequence_error _ _ (map_eq_error _ _ _ h))
          exact ih j hj limit hrepr
  | obj fields ih =>
      cases limit with
      | zero => exact .inr (Except.error.inj h).symm
      | succ limit =>
          simp only [ofJson, reprAt] at h
          have hentry := sequence_error _ _ (map_eq_error _ _ _ h)
          clear h
          induction fields with
          | nil => cases hentry
          | cons f fields ihf =>
              obtain ⟨k, v⟩ := f
              rw [ofFields, reprEntries] at hentry
              rcases List.mem_cons.mp hentry with hfirst | hrest
              · have hvalue := ih (k, v) List.mem_cons_self limit
                simp only [reprAt] at hfirst
                cases hrepr : reprAt rt limit (ofJson v) with
                | error e' =>
                    rw [hrepr] at hfirst
                    obtain rfl := Except.error.inj hfirst
                    exact hvalue hrepr
                | ok text =>
                    rw [hrepr] at hfirst
                    cases hfirst
              · exact ihf (fun f hf => ih f (List.mem_cons_of_mem _ hf)) hrest
  | _ => cases h

end OfJson

section Entries

theorem strKeys_eq_some (entries : List (PyData × α)) (fields : List (PyStr × α))
    (h : strKeys entries = some fields) : entries = fields.map fun f => (.str f.1, f.2) := by
  induction entries generalizing fields with
  | nil =>
      obtain rfl : [] = fields := by simpa [strKeys] using h
      rfl
  | cons entry entries ih =>
      obtain ⟨k, a⟩ := entry
      cases k with
      | str s =>
          obtain ⟨rest, hrest, rfl⟩ := Option.map_eq_some_iff.mp h
          rw [ih rest hrest, List.map_cons]
      | _ => cases h

theorem numKeys_eq_some (entries : List (PyData × α)) (fields : List (PyNum × PyData × α))
    (h : numKeys entries = some fields) : entries = fields.map Prod.snd := by
  induction entries generalizing fields with
  | nil =>
      obtain rfl : [] = fields := by simpa [numKeys] using h
      rfl
  | cons entry entries ih =>
      obtain ⟨k, a⟩ := entry
      cases k with
      | int n | float x | bool b =>
          obtain ⟨rest, hrest, rfl⟩ := Option.map_eq_some_iff.mp h
          rw [ih rest hrest, List.map_cons]
      | _ => cases h

theorem orderEntries_perm (st : Json.Style) (entries ordered : List (PyData × α))
    (h : orderEntries st entries = .ok ordered) : ordered.Perm entries := by
  unfold orderEntries sortEntries at h
  split at h
  · split at h
    · next _ _ fields hstr =>
        obtain rfl := Except.ok.inj h
        rw [strKeys_eq_some entries fields hstr]
        exact (Json.sortKeys_perm fields).map _
    · next _ _ _ fields _ hnum =>
        obtain rfl := Except.ok.inj h
        rw [numKeys_eq_some entries fields hnum]
        exact (List.perm_insertionSort _ fields).map _
    · split at h
      · obtain rfl := Except.ok.inj h
        rfl
      · cases h
  · obtain rfl := Except.ok.inj h
    rfl

-- A dict is written only if each of its values is.
theorem dumpsAt_dict_of_mem (st : Json.Style) (limit : Nat) (entries : List (PyData × PyData))
    (entry : PyData × PyData) (hentry : entry ∈ entries) (text : PyStr)
    (h : dumpsAt st limit (.dict entries) = .ok text) : ∃ limit' text', dumpsAt st limit' entry.2 = .ok text' := by
  cases limit with
  | zero => cases h
  | succ limit =>
      rw [dumpsAt] at h
      obtain ⟨ordered, hordered, h⟩ := (bind_eq_ok _ _ _).mp h
      obtain ⟨texts, htexts, -⟩ := (bind_eq_ok _ _ _).mp h
      have hmem : (entry.1, dumpsAt st limit entry.2) ∈ ordered := by
        rw [(orderEntries_perm st _ ordered hordered).mem_iff, dumpsEntries_eq]
        exact List.mem_map_of_mem hentry
      obtain ⟨line, hline⟩ := (Json.sequence_isOk_iff _).mp ⟨texts, htexts⟩ _ (List.mem_map_of_mem hmem)
      obtain ⟨key, -, hvalue⟩ := (bind_eq_ok _ _ _).mp hline
      obtain ⟨value, hvalue, -⟩ := (bind_eq_ok _ _ _).mp hvalue
      exact ⟨limit, value, hvalue⟩

end Entries

end PyData

end V91Core.Python
