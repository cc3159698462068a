import ReliableDelivery.Support.Decimal
import ReliableDelivery.Support.SortedSet
import Mathlib.Data.List.Lex

/-!
# A Redis database and its scripts

The key space is flat: a key is a byte string and holds a string, a hash or a
sorted set.  A command reads or writes single keys and may fail, for instance
on a value of the wrong type.  A script is a sequence of commands executed
without interruption; as in Redis, a command that fails aborts the script and
the writes made before it stay in place.

Scores are natural numbers here.  Redis keeps them as doubles, which represent
the integers up to `2 ^ 53` exactly; a millisecond clock stays below that.
-/

open Decimal

instance byteLinearOrder : LinearOrder UInt8 where
  le_refl := UInt8.le_refl
  le_trans _ _ _ := UInt8.le_trans
  le_antisymm _ _ := UInt8.le_antisymm
  le_total := UInt8.le_total
  lt_iff_le_not_ge a b := by
    rw [UInt8.not_le, iff_and_self]
    exact UInt8.le_of_lt
  toDecidableLE := inferInstance

namespace Redis

/-- The fields of a hash. -/
abbrev Fields := Bytes → Option Bytes

abbrev ZSet := SortedSet ℕ Bytes

inductive Value where
  | string (text : Bytes)
  | hash (fields : Fields)
  | zset (set : ZSet)

/-- The whole key space. -/
abbrev Db := Bytes → Option Value

def Db.empty : Db := fun _ => none

inductive Error where
  | wrongType
  | notAnInteger
  | overflow
  | notAFloat
  deriving DecidableEq, Repr

inductive Reply where
  | nil
  | bulk (text : Bytes)
  | integer (n : ℤ)
  | array (elements : List Reply)
  | error (e : Error)
  deriving Repr

/-! ## Numbers as text -/

/-- Redis integers are signed and have 64 bits. -/
def integerMax : ℤ := 2 ^ 63 - 1

def integerMin : ℤ := -2 ^ 63

def renderInteger : ℤ → Bytes
  | .ofNat n => render n
  | .negSucc n => 45 :: render (n + 1)

/-- The number whose plain decimal rendering is the given text. -/
def parseNatural (text : Bytes) : Option ℕ :=
  if render (value 0 text) = text then some (value 0 text) else none

/-- Redis reads a stored string as an integer only in canonical form. -/
def parseInteger (text : Bytes) : Option ℤ :=
  match text with
  | 45 :: digits =>
      (parseNatural digits).bind fun n =>
        if 0 < n ∧ integerMin ≤ -(n : ℤ) then some (-(n : ℤ)) else none
  | _ =>
      (parseNatural text).bind fun n =>
        if (n : ℤ) ≤ integerMax then some (n : ℤ) else none

@[simp] theorem parseNatural_render (n : ℕ) :
    parseNatural (render n) = some n := by
  simp [parseNatural]

theorem parseInteger_render {n : ℕ} (hn : (n : ℤ) ≤ integerMax) :
    parseInteger (render n) = some (n : ℤ) := by
  obtain ⟨b, rest, hb, hdigit⟩ := head_render_isDigit n
  have hsign : b ≠ 45 := by
    rintro rfl
    exact absurd hdigit (by decide)
  have hplain : parseInteger (render n) =
      (parseNatural (render n)).bind fun n =>
        if (n : ℤ) ≤ integerMax then some (n : ℤ) else none := by
    rw [hb]
    unfold parseInteger
    split
    · simp_all
    · rfl
  rw [hplain, parseNatural_render, Option.bind_some, if_pos hn]

@[simp] theorem renderInteger_natCast (n : ℕ) :
    renderInteger (n : ℤ) = render n :=
  rfl

/-! ## Scripts -/

/-- A script reads and writes the database, and ends with a result or with the
error of the command that aborted it. -/
structure Script (α : Type) where
  run : Db → Except Error α × Db

namespace Script

def pure {α : Type} (a : α) : Script α :=
  ⟨fun db => (.ok a, db)⟩

def bind {α β : Type} (x : Script α) (f : α → Script β) : Script β :=
  ⟨fun db =>
    match x.run db with
    | (.ok a, db') => (f a).run db'
    | (.error e, db') => (.error e, db')⟩

/-- Abort with an error. -/
def fail {α : Type} (e : Error) : Script α :=
  ⟨fun db => (.error e, db)⟩

instance : Monad Script where
  pure := Script.pure
  bind := Script.bind

@[simp] theorem pure_run {α : Type} (a : α) (db : Db) :
    (Pure.pure a : Script α).run db = (.ok a, db) :=
  rfl

@[simp] theorem fail_run {α : Type} (e : Error) (db : Db) :
    (fail e : Script α).run db = (.error e, db) :=
  rfl

theorem bind_ok {α β : Type} {x : Script α} {f : α → Script β}
    {db db' : Db} {a : α} (h : x.run db = (.ok a, db')) :
    (x >>= f).run db = (f a).run db' := by
  change (Script.bind x f).run db = (f a).run db'
  simp only [Script.bind, h]

theorem bind_error {α β : Type} {x : Script α} {f : α → Script β}
    {db db' : Db} {e : Error} (h : x.run db = (.error e, db')) :
    (x >>= f).run db = (.error e, db') := by
  change (Script.bind x f).run db = _
  simp only [Script.bind, h]

end Script

/-- Run a script to its reply. -/
def eval (script : Script Reply) (db : Db) : Reply × Db :=
  match script.run db with
  | (.ok reply, db') => (reply, db')
  | (.error e, db') => (.error e, db')

theorem eval_ok {script : Script Reply} {db db' : Db} {reply : Reply}
    (h : script.run db = (.ok reply, db')) :
    eval script db = (reply, db') := by
  rw [eval, h]

theorem eval_error {script : Script Reply} {db db' : Db} {e : Error}
    (h : script.run db = (.error e, db')) :
    eval script db = (.error e, db') := by
  rw [eval, h]

/-! ## Commands -/

/-- A key read as a string; a missing key has none. -/
def stringAt : Option Value → Option (Option Bytes)
  | none => some none
  | some (.string text) => some (some text)
  | some _ => none

/-- A key read as a hash; a missing key is an empty hash. -/
def hashAt : Option Value → Option Fields
  | none => some fun _ => none
  | some (.hash fields) => some fields
  | some _ => none

/-- A key read as a sorted set; a missing key is an empty set. -/
def zsetAt : Option Value → Option ZSet
  | none => some .empty
  | some (.zset set) => some set
  | some _ => none

/-- A sorted set that has become empty is removed with its key. -/
def zsetValue (set : ZSet) : Option Value :=
  if set.entries = [] then none else some (.zset set)

@[simp] theorem stringAt_string (text : Bytes) :
    stringAt (some (.string text)) = some (some text) :=
  rfl

@[simp] theorem hashAt_hash (fields : Fields) :
    hashAt (some (.hash fields)) = some fields :=
  rfl

@[simp] theorem zsetAt_zset (set : ZSet) : zsetAt (some (.zset set)) = some set :=
  rfl

@[simp] theorem zsetAt_zsetValue (set : ZSet) :
    zsetAt (zsetValue set) = some set := by
  unfold zsetValue
  split
  · next h =>
      obtain ⟨entries, hsorted, hnodup⟩ := set
      simp only at h
      subst h
      rfl
  · rfl

def exists? (key : Bytes) : Script Bool :=
  ⟨fun db => (.ok (db key).isSome, db)⟩

def get (key : Bytes) : Script (Option Bytes) :=
  ⟨fun db =>
    match stringAt (db key) with
    | some text => (.ok text, db)
    | none => (.error .wrongType, db)⟩

def set (key text : Bytes) : Script Unit :=
  ⟨fun db => (.ok (), Function.update db key (some (.string text)))⟩

def incr (key : Bytes) : Script ℤ :=
  ⟨fun db =>
    match stringAt (db key) with
    | none => (.error .wrongType, db)
    | some text =>
        match parseInteger (text.getD (render 0)) with
        | none => (.error .notAnInteger, db)
        | some n =>
            if n + 1 ≤ integerMax then
              (.ok (n + 1),
                Function.update db key (some (.string (renderInteger (n + 1)))))
            else (.error .overflow, db)⟩

/-- Write several fields of a hash. -/
def setFields (fields : Fields) (updates : List (Bytes × Bytes)) : Fields :=
  updates.foldl (fun h fv => Function.update h fv.1 (some fv.2)) fields

def hset (key : Bytes) (updates : List (Bytes × Bytes)) : Script Unit :=
  ⟨fun db =>
    match hashAt (db key) with
    | some fields =>
        (.ok (), Function.update db key (some (.hash (setFields fields updates))))
    | none => (.error .wrongType, db)⟩

def hget (key field : Bytes) : Script (Option Bytes) :=
  ⟨fun db =>
    match hashAt (db key) with
    | some fields => (.ok (fields field), db)
    | none => (.error .wrongType, db)⟩

def hmget (key : Bytes) (names : List Bytes) : Script (List (Option Bytes)) :=
  ⟨fun db =>
    match hashAt (db key) with
    | some fields => (.ok (names.map fields), db)
    | none => (.error .wrongType, db)⟩

def hincrby (key field : Bytes) (delta : ℤ) : Script ℤ :=
  ⟨fun db =>
    match hashAt (db key) with
    | none => (.error .wrongType, db)
    | some fields =>
        match parseInteger ((fields field).getD (render 0)) with
        | none => (.error .notAnInteger, db)
        | some n =>
            if integerMin ≤ n + delta ∧ n + delta ≤ integerMax then
              (.ok (n + delta),
                Function.update db key (some (.hash
                  (setFields fields [(field, renderInteger (n + delta))]))))
            else (.error .overflow, db)⟩

def zadd (key score member : Bytes) : Script Unit :=
  ⟨fun db =>
    match parseNatural score with
    | none => (.error .notAFloat, db)
    | some s =>
        match zsetAt (db key) with
        | some set =>
            (.ok (), Function.update db key (some (.zset (set.insert s member))))
        | none => (.error .wrongType, db)⟩

def zrem (key member : Bytes) : Script Unit :=
  ⟨fun db =>
    match zsetAt (db key) with
    | some set => (.ok (), Function.update db key (zsetValue (set.erase member)))
    | none => (.error .wrongType, db)⟩

/-- The listing of a sorted set, by increasing score. -/
def zentries (key : Bytes) : Script (List (ℕ × Bytes)) :=
  ⟨fun db =>
    match zsetAt (db key) with
    | some set => (.ok set.entries, db)
    | none => (.error .wrongType, db)⟩

/-! ## Observations

What `GET`, `HGET` and `ZSCORE` would answer, as functions of the database. -/

def textOf (db : Db) (key : Bytes) : Option Bytes :=
  (stringAt (db key)).join

def fieldOf (db : Db) (key field : Bytes) : Option Bytes :=
  (hashAt (db key)).bind fun fields => fields field

def scoreOf (db : Db) (key member : Bytes) : Option ℕ :=
  (zsetAt (db key)).bind fun set => set.score member

/-! ## What a command does on a value of its type -/

section Run

variable {db : Db} {key field member text : Bytes} {fields : Fields}
  {z : ZSet} {n : ℕ}

theorem get_run {t : Option Bytes} (h : stringAt (db key) = some t) :
    (get key).run db = (.ok t, db) := by
  simp only [get, h]

theorem set_run :
    (set key text).run db =
      (.ok (), Function.update db key (some (.string text))) :=
  rfl

theorem hget_run (h : hashAt (db key) = some fields) :
    (hget key field).run db = (.ok (fields field), db) := by
  simp only [hget, h]

theorem hmget_run {names : List Bytes} (h : hashAt (db key) = some fields) :
    (hmget key names).run db = (.ok (names.map fields), db) := by
  simp only [hmget, h]

theorem hset_run {updates : List (Bytes × Bytes)}
    (h : hashAt (db key) = some fields) :
    (hset key updates).run db =
      (.ok (), Function.update db key
        (some (.hash (setFields fields updates)))) := by
  simp only [hset, h]

theorem zadd_run (h : zsetAt (db key) = some z) :
    (zadd key (render n) member).run db =
      (.ok (), Function.update db key
        (some (.zset (z.insert n member)))) := by
  simp only [zadd, parseNatural_render, h]

theorem zrem_run (h : zsetAt (db key) = some z) :
    (zrem key member).run db =
      (.ok (), Function.update db key (zsetValue (z.erase member))) := by
  simp only [zrem, h]

theorem zentries_run (h : zsetAt (db key) = some z) :
    (zentries key).run db = (.ok z.entries, db) := by
  simp only [zentries, h]

/-- `INCR` on a counter that has room. -/
theorem incr_run {t : Option Bytes} (h : stringAt (db key) = some t)
    (ht : t.getD (render 0) = render n) (hn : (n : ℤ) + 1 ≤ integerMax) :
    (incr key).run db =
      (.ok ((n + 1 : ℕ) : ℤ), Function.update db key
        (some (.string (render (n + 1))))) := by
  have hle : (n : ℤ) ≤ integerMax := by omega
  simp only [incr, h, ht, parseInteger_render hle, if_pos hn]
  rfl

/-- `INCR` on a counter that has reached the largest integer. -/
theorem incr_overflow {t : Option Bytes} (h : stringAt (db key) = some t)
    (ht : t.getD (render 0) = render n) (hle : (n : ℤ) ≤ integerMax)
    (hn : ¬(n : ℤ) + 1 ≤ integerMax) :
    (incr key).run db = (.error .overflow, db) := by
  simp only [incr, h, ht, parseInteger_render hle, if_neg hn]

/-- `HINCRBY key field 1` on a counter field that has room. -/
theorem hincrby_one_run (h : hashAt (db key) = some fields)
    (hf : fields field = some (render n)) (hn : (n : ℤ) + 1 ≤ integerMax) :
    (hincrby key field 1).run db =
      (.ok ((n + 1 : ℕ) : ℤ), Function.update db key (some (.hash
        (setFields fields [(field, render (n + 1))])))) := by
  have hle : (n : ℤ) ≤ integerMax := by omega
  have hmin : integerMin ≤ (n : ℤ) + 1 := by
    have : integerMin ≤ 0 := by decide
    omega
  simp only [hincrby, h, hf, Option.getD_some, parseInteger_render hle,
    if_pos (And.intro hmin hn)]
  rfl

/-- `HINCRBY key field 1` on a counter field at the largest integer. -/
theorem hincrby_one_overflow (h : hashAt (db key) = some fields)
    (hf : fields field = some (render n)) (hle : (n : ℤ) ≤ integerMax)
    (hn : ¬(n : ℤ) + 1 ≤ integerMax) :
    (hincrby key field 1).run db = (.error .overflow, db) := by
  simp only [hincrby, h, hf, Option.getD_some, parseInteger_render hle,
    if_neg (fun hb : _ ∧ _ => hn hb.2)]

end Run

end Redis
