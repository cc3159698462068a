import Mathlib.Data.Rat.Defs
import Mathlib.Tactic

/-!
# Values, conversions and exceptions of ECMAScript

The values that `JSON.parse` gives, and what `Number(x)` and `String(x)` make of
them.  Such an object inherits its methods from `Object.prototype` or
`Array.prototype`; an own property hides the inherited method, and since no JSON
value can be called, it leaves the object without that method.  Limits of an
implementation, such as the depth of its stack, are left out.
-/

namespace Ecmascript

/-- A text is a sequence of UTF-16 code units. -/
abbrev Text := List UInt16

/-- A text of ASCII characters. -/
def ascii (s : String) : Text :=
  s.toList.map fun c => UInt16.ofNat c.toNat

/-- A number value; the two zeros are not told apart. -/
inductive Number where
  | nan
  | infinity (negative : Bool)
  | finite (value : ℚ)
  deriving DecidableEq

inductive Json where
  | null
  | bool (b : Bool)
  | number (x : Number)
  | string (text : Text)
  | array (elements : List Json)
  | object (properties : List (Text × Json))

/-- The conversions between numbers and texts. -/
structure Engine where
  stringToNumber : Text → Number
  numberToString : Number → Text

/-! ## Exceptions -/

/-- An `Error`, by its message. -/
structure JsError where
  message : Text
  deriving DecidableEq

/-- Code that works on objects of type `σ` and may raise an exception.  What was
written before an exception stays written. -/
abbrev Js (σ : Type) := ExceptT JsError (StateM σ)

namespace Js

variable {σ α β : Type}

/-- How the code ends, and what it leaves behind. -/
def exec (p : Js σ α) (s : σ) : Except JsError α × σ :=
  StateT.run (ExceptT.run p) s

/-- The code ends without an exception. -/
def Returns (p : Js σ α) (s : σ) : Prop :=
  ∃ a, (p.exec s).1 = .ok a

/-- Raise the exception of a conversion that failed. -/
def ofExcept : Except JsError α → Js σ α
  | .ok a => pure a
  | .error e => throw e

@[simp] theorem exec_pure (a : α) (s : σ) : exec (pure a) s = (.ok a, s) :=
  rfl

@[simp] theorem exec_throw (e : JsError) (s : σ) :
    exec (throw e : Js σ α) s = (.error e, s) :=
  rfl

@[simp] theorem exec_get (s : σ) : exec (get : Js σ σ) s = (.ok s, s) :=
  rfl

@[simp] theorem exec_set (s s' : σ) : exec (set s' : Js σ Unit) s = (.ok (), s') :=
  rfl

@[simp] theorem exec_modify (f : σ → σ) (s : σ) :
    exec (modify f : Js σ Unit) s = (.ok (), f s) :=
  rfl

theorem exec_bind (p : Js σ α) (f : α → Js σ β) (s : σ) :
    exec (p >>= f) s =
      match exec p s with
      | (.ok a, s') => exec (f a) s'
      | (.error e, s') => (.error e, s') := by
  rcases hp : exec p s with ⟨e | a, s'⟩
  · rw [exec] at hp ⊢
    rw [ExceptT.run_bind, StateT.run_bind, hp]
    rfl
  · rw [exec] at hp ⊢
    rw [ExceptT.run_bind, StateT.run_bind, hp]
    rfl

theorem exec_tryCatch (p : Js σ α) (handler : JsError → Js σ α) (s : σ) :
    exec (tryCatch p handler) s =
      match exec p s with
      | (.ok a, s') => (.ok a, s')
      | (.error e, s') => exec (handler e) s' := by
  rcases hp : exec p s with ⟨e | a, s'⟩
  · rw [exec] at hp ⊢
    rw [ExceptT.run_tryCatch, StateT.run_bind, hp]
    rfl
  · rw [exec] at hp ⊢
    rw [ExceptT.run_tryCatch, StateT.run_bind, hp]
    rfl

theorem returns_bind {p : Js σ α} {f : α → Js σ β} {s : σ} :
    Returns (p >>= f) s ↔
      ∃ a s', p.exec s = (.ok a, s') ∧ Returns (f a) s' := by
  rw [Returns, exec_bind]
  rcases hp : exec p s with ⟨_ | a, s'⟩
  · simp
  · simp [Returns]

@[simp] theorem returns_pure (a : α) (s : σ) : Returns (pure a : Js σ α) s :=
  ⟨a, rfl⟩

@[simp] theorem not_returns_throw (e : JsError) (s : σ) :
    ¬Returns (throw e : Js σ α) s := by
  simp [Returns]

@[simp] theorem returns_modify (f : σ → σ) (s : σ) :
    Returns (modify f : Js σ Unit) s :=
  ⟨(), rfl⟩

theorem returns_get_bind {f : σ → Js σ α} {s : σ} :
    Returns (get >>= f) s ↔ Returns (f s) s := by
  simp [returns_bind]

theorem returns_modify_bind {f : σ → σ} {p : Unit → Js σ α} {s : σ} :
    Returns (modify f >>= p) s ↔ Returns (p ()) (f s) := by
  rw [returns_bind]
  constructor
  · rintro ⟨⟨⟩, s', hexec, hreturns⟩
    cases hexec
    exact hreturns
  · intro hreturns
    exact ⟨(), f s, rfl, hreturns⟩

theorem returns_ofExcept_bind {x : Except JsError α} {f : α → Js σ β} {s : σ} :
    Returns (ofExcept x >>= f) s ↔ ∃ a, x = .ok a ∧ Returns (f a) s := by
  rw [returns_bind]
  cases x with
  | error e => simp [ofExcept]
  | ok a => simp [ofExcept]

/-- A handler that returns takes care of every exception. -/
theorem returns_tryCatch {p : Js σ α} {handler : JsError → Js σ α} {s : σ}
    (h : ∀ e s', Returns (handler e) s') : Returns (tryCatch p handler) s := by
  rw [Returns, exec_tryCatch]
  rcases exec p s with ⟨e | a, s'⟩
  · exact h e s'
  · exact ⟨a, rfl⟩

/-! ### What the code may change -/

/-- However the code ends, it goes only where the relation allows. -/
def Within (r : σ → σ → Prop) (p : Js σ α) : Prop :=
  ∀ s, r s (p.exec s).2

section Within

variable {r : σ → σ → Prop}

theorem within_get_bind {f : σ → Js σ α} (hf : ∀ s, r s ((f s).exec s).2) :
    Within r (get >>= f) := by
  intro s
  rw [exec_bind]
  exact hf s

variable [IsPreorder σ r]

theorem within_pure (a : α) : Within r (pure a : Js σ α) :=
  fun s => refl_of r s

theorem within_throw (e : JsError) : Within r (throw e : Js σ α) :=
  fun s => refl_of r s

theorem within_ofExcept (x : Except JsError α) : Within r (ofExcept x) := by
  cases x with
  | error e => exact within_throw e
  | ok a => exact within_pure a

theorem Within.bind {p : Js σ α} {f : α → Js σ β} (hp : Within r p)
    (hf : ∀ a, Within r (f a)) : Within r (p >>= f) := by
  intro s
  have hfirst := hp s
  rw [exec_bind]
  rcases hexec : exec p s with ⟨e | a, s'⟩
  · rw [hexec] at hfirst
    exact hfirst
  · rw [hexec] at hfirst
    exact trans_of r hfirst (hf a s')

theorem Within.tryCatch {p : Js σ α} {handler : JsError → Js σ α}
    (hp : Within r p) (hhandler : ∀ e, Within r (handler e)) :
    Within r (tryCatch p handler) := by
  intro s
  have hfirst := hp s
  rw [exec_tryCatch]
  rcases hexec : exec p s with ⟨e | a, s'⟩
  · rw [hexec] at hfirst
    exact trans_of r hfirst (hhandler e s')
  · rw [hexec] at hfirst
    exact hfirst

end Within

end Js

/-- The exception of an object that has no method to convert it. -/
def conversionError : JsError where
  message := ascii "Cannot convert object to primitive value"

/-! ## Numbers -/

/-- `Number.isInteger`. -/
def Number.isInteger : Number → Bool
  | .finite value => value.den = 1
  | _ => false

/-- The comparison `x <= 0`. -/
def Number.nonpositive : Number → Bool
  | .nan => false
  | .infinity negative => negative
  | .finite value => value ≤ 0

/-- The comparison `x < y`; it is undefined if one of them is not a number. -/
def Number.isLessThan : Number → Number → Option Bool
  | .nan, _ => none
  | _, .nan => none
  | .finite x, .finite y => some (x < y)
  | .finite _, .infinity negative => some !negative
  | .infinity negative, .finite _ => some negative
  | .infinity negative, .infinity negative' => some (negative && !negative')

/-- The value of a positive integer. -/
def Number.toNat : Number → ℕ
  | .finite value => value.num.toNat
  | _ => 0

theorem Number.toNat_pos {x : Number} (hinteger : x.isInteger = true)
    (hpositive : x.nonpositive = false) : 0 < x.toNat := by
  cases x with
  | nan => cases hinteger
  | infinity negative => cases hinteger
  | finite value =>
      have hpos : 0 < value := by
        rw [nonpositive, decide_eq_false_iff_not, not_le] at hpositive
        exact hpositive
      rw [toNat, Int.lt_toNat]
      exact Rat.num_pos.mpr hpos

def Number.ofNat (n : ℕ) : Number :=
  .finite n

/-! ## Objects -/

/-- The value of a property, if it is not `undefined`. -/
def property (name : Text) (properties : List (Text × Json)) : Option Json :=
  (properties.find? fun p => p.1 = name).map Prod.snd

/-- The methods that convert an object. -/
inductive Method where
  | toString
  | valueOf
  deriving DecidableEq

def Method.name : Method → Text
  | .toString => ascii "toString"
  | .valueOf => ascii "valueOf"

/-- `OrdinaryToPrimitive`: try the methods in turn.  An own property of the name
is not a method, and a method that returns an object is passed over. -/
def ordinaryToPrimitive (own : Text → Bool)
    (call : Method → Except JsError (Option Text)) :
    List Method → Except JsError Text
  | [] => .error conversionError
  | method :: methods =>
      if own method.name then ordinaryToPrimitive own call methods
      else
        match call method with
        | .error e => .error e
        | .ok (some text) => .ok text
        | .ok none => ordinaryToPrimitive own call methods

/-- The methods of `Object.prototype`. -/
def callObject : Method → Except JsError (Option Text)
  | .toString => .ok (some (ascii "[object Object]"))
  | .valueOf => .ok none

/-- The methods of an array, given the outcome of `join`. -/
def callArray (joined : Except JsError Text) :
    Method → Except JsError (Option Text)
  | .toString => joined.map some
  | .valueOf => .ok none

/-- Concatenate with commas between. -/
def joinTexts : List Text → Text
  | [] => []
  | [text] => text
  | text :: texts => text ++ ascii "," ++ joinTexts texts

def hasProperty (properties : List (Text × Json)) (name : Text) : Bool :=
  properties.any fun p => p.1 = name

mutual

/-- `String(x)`. -/
def Json.toText (engine : Engine) : Json → Except JsError Text
  | .null => .ok (ascii "null")
  | .bool true => .ok (ascii "true")
  | .bool false => .ok (ascii "false")
  | .number x => .ok (engine.numberToString x)
  | .string text => .ok text
  | .array elements =>
      ordinaryToPrimitive (fun _ => false)
        (callArray ((elementTexts engine elements).map joinTexts))
        [.toString, .valueOf]
  | .object properties =>
      ordinaryToPrimitive (hasProperty properties) callObject
        [.toString, .valueOf]

/-- The texts that `Array.prototype.join` puts together; `null` gives an empty
one. -/
def elementTexts (engine : Engine) : List Json → Except JsError (List Text)
  | [] => .ok []
  | .null :: elements => (elementTexts engine elements).map ([] :: ·)
  | element :: elements =>
      match element.toText engine with
      | .error e => .error e
      | .ok text => (elementTexts engine elements).map (text :: ·)

end

/-- `Number(x)`. -/
def toNumber (engine : Engine) : Option Json → Except JsError Number
  | none => .ok .nan
  | some .null => .ok (.finite 0)
  | some (.bool true) => .ok (.finite 1)
  | some (.bool false) => .ok (.finite 0)
  | some (.number x) => .ok x
  | some (.string text) => .ok (engine.stringToNumber text)
  | some (.array elements) =>
      (ordinaryToPrimitive (fun _ => false)
        (callArray ((elementTexts engine elements).map joinTexts))
        [.valueOf, .toString]).map engine.stringToNumber
  | some (.object properties) =>
      (ordinaryToPrimitive (hasProperty properties) callObject
        [.valueOf, .toString]).map engine.stringToNumber

/-- Whether a value counts as true. -/
def truthy : Option Json → Bool
  | none => false
  | some .null => false
  | some (.bool b) => b
  | some (.number .nan) => false
  | some (.number (.finite value)) => value ≠ 0
  | some (.string text) => text ≠ []
  | _ => true

/-- `String(x || "")`. -/
def toTextOrEmpty (engine : Engine) (value : Option Json) :
    Except JsError Text :=
  match value with
  | some x => if truthy value then x.toText engine else .ok []
  | none => .ok []

/-- White space and line terminators. -/
def isWhiteSpace (c : UInt16) : Bool :=
  (9 ≤ c && c ≤ 13) || c = 32 || c = 0xA0 || c = 0x1680 ||
    (0x2000 ≤ c && c ≤ 0x200A) || c = 0x2028 || c = 0x2029 || c = 0x202F ||
    c = 0x205F || c = 0x3000 || c = 0xFEFF

/-- `String.prototype.trim`. -/
def trim (text : Text) : Text :=
  ((text.dropWhile isWhiteSpace).reverse.dropWhile isWhiteSpace).reverse

/-! ## Which values can be converted -/

mutual

/-- No object in the value, other than below another object, has an own property
`toString`. -/
def Json.convertible : Json → Bool
  | .array elements => allConvertible elements
  | .object properties => !hasProperty properties Method.toString.name
  | _ => true

def allConvertible : List Json → Bool
  | [] => true
  | element :: elements => element.convertible && allConvertible elements

end

theorem exists_map_ok {α β : Type} {x : Except JsError α} {f : α → β} :
    (∃ b, x.map f = .ok b) ↔ ∃ a, x = .ok a := by
  cases x with
  | error e => simp [Except.map]
  | ok a => simp [Except.map]

/-- An object is converted by `toString`: what it has in place of `valueOf`
makes no difference, and neither does the order of the two. -/
theorem objectToPrimitive_ok (properties : List (Text × Json))
    {methods : List Method}
    (hmethods : methods = [.toString, .valueOf] ∨
      methods = [.valueOf, .toString]) :
    (∃ text, ordinaryToPrimitive (hasProperty properties) callObject methods =
      .ok text) ↔ hasProperty properties Method.toString.name = false := by
  cases htoString : hasProperty properties Method.toString.name with
  | true =>
      rcases hmethods with rfl | rfl
      · simp [ordinaryToPrimitive, callObject, htoString]
      · simp [ordinaryToPrimitive, callObject, htoString]
  | false =>
      rcases hmethods with rfl | rfl
      · simp [ordinaryToPrimitive, callObject, htoString]
      · simp [ordinaryToPrimitive, callObject, htoString]

/-- An array is converted if its elements can be joined. -/
theorem arrayToPrimitive_ok (joined : Except JsError Text)
    {methods : List Method}
    (hmethods : methods = [.toString, .valueOf] ∨
      methods = [.valueOf, .toString]) :
    (∃ text, ordinaryToPrimitive (fun _ => false) (callArray joined) methods =
      .ok text) ↔ ∃ text, joined = .ok text := by
  cases joined with
  | error e =>
      rcases hmethods with rfl | rfl
      · simp [ordinaryToPrimitive, callArray, Except.map]
      · simp [ordinaryToPrimitive, callArray, Except.map]
  | ok text =>
      rcases hmethods with rfl | rfl
      · simp [ordinaryToPrimitive, callArray, Except.map]
      · simp [ordinaryToPrimitive, callArray, Except.map]

theorem elementTexts_cons_ok (engine : Engine) (element : Json)
    (elements : List Json) :
    (∃ texts, elementTexts engine (element :: elements) = .ok texts) ↔
      (∃ text, element.toText engine = .ok text) ∧
        ∃ texts, elementTexts engine elements = .ok texts := by
  rw [elementTexts.eq_def]
  split
  · next heq => cases heq
  · next heq =>
      cases heq
      simp [Json.toText, exists_map_ok]
  · next heq =>
      cases heq
      split
      · next e helement => simp [helement]
      · next text helement => simp [helement, exists_map_ok]

mutual

theorem toText_ok (engine : Engine) :
    ∀ x : Json, (∃ text, x.toText engine = .ok text) ↔ x.convertible = true
  | .null => by simp [Json.toText, Json.convertible]
  | .bool true => by simp [Json.toText, Json.convertible]
  | .bool false => by simp [Json.toText, Json.convertible]
  | .number x => by simp [Json.toText, Json.convertible]
  | .string text => by simp [Json.toText, Json.convertible]
  | .array elements => by
      rw [Json.toText, arrayToPrimitive_ok _ (.inl rfl), exists_map_ok,
        elementTexts_ok, Json.convertible]
  | .object properties => by
      rw [Json.toText, objectToPrimitive_ok _ (.inl rfl), Json.convertible,
        Bool.not_eq_true']

theorem elementTexts_ok (engine : Engine) :
    ∀ elements : List Json, (∃ texts, elementTexts engine elements = .ok texts) ↔
      allConvertible elements = true
  | [] => by simp [elementTexts, allConvertible]
  | element :: elements => by
      rw [elementTexts_cons_ok, toText_ok engine element,
        elementTexts_ok engine elements, allConvertible, Bool.and_eq_true]

end

theorem toNumber_ok (engine : Engine) (value : Option Json) :
    (∃ x, toNumber engine value = .ok x) ↔
      value.all Json.convertible = true := by
  cases value with
  | none => simp [toNumber]
  | some x =>
      rw [Option.all_some]
      cases x with
      | null => simp [toNumber, Json.convertible]
      | bool b => cases b <;> simp [toNumber, Json.convertible]
      | number x => simp [toNumber, Json.convertible]
      | string text => simp [toNumber, Json.convertible]
      | array elements =>
          rw [toNumber, exists_map_ok, arrayToPrimitive_ok _ (.inr rfl),
            exists_map_ok, elementTexts_ok, Json.convertible]
      | object properties =>
          rw [toNumber, exists_map_ok, objectToPrimitive_ok _ (.inr rfl),
            Json.convertible, Bool.not_eq_true']

theorem toTextOrEmpty_ok (engine : Engine) (value : Option Json) :
    (∃ text, toTextOrEmpty engine value = .ok text) ↔
      value.all Json.convertible = true := by
  cases value with
  | none => simp [toTextOrEmpty]
  | some x =>
      rw [toTextOrEmpty, Option.all_some]
      split
      · exact toText_ok engine x
      · next hfalse =>
          cases x with
          | array elements => exact absurd rfl hfalse
          | object properties => exact absurd rfl hfalse
          | _ => simp [Json.convertible]

/-! ## Escapes in URIs -/

/-- A code unit, or a byte that is written as an escape. -/
inductive Escaped where
  | unit (c : UInt16)
  | byte (b : ℕ)

def hexDigit (c : UInt16) : Option ℕ :=
  let n := c.toNat
  if 0x30 ≤ n ∧ n ≤ 0x39 then some (n - 0x30)
  else if 0x41 ≤ n ∧ n ≤ 0x46 then some (n - 0x41 + 10)
  else if 0x61 ≤ n ∧ n ≤ 0x66 then some (n - 0x61 + 10)
  else none

/-- Find the escapes: a percent sign and two hexadecimal digits. -/
def escapes : Text → Option (List Escaped)
  | [] => some []
  | 0x25 :: high :: low :: text =>
      match hexDigit high, hexDigit low with
      | some x, some y => (escapes text).map (.byte (16 * x + y) :: ·)
      | _, _ => none
  | c :: text => if c = 0x25 then none else (escapes text).map (.unit c :: ·)

/-- The code units of a code point. -/
def codeUnits (point : ℕ) : Text :=
  if point < 0x10000 then [UInt16.ofNat point]
  else
    [UInt16.ofNat (0xD800 + (point - 0x10000) / 0x400),
      UInt16.ofNat (0xDC00 + (point - 0x10000) % 0x400)]

/-- Read the bytes as UTF-8.  So many bytes are missing of a code point, `point` is what
is known of it, and it must not be below `least`. -/
def decodeEscapes : ℕ → ℕ → ℕ → List Escaped → Option Text
  | 0, _, _, [] => some []
  | 0, _, _, .unit c :: items => (decodeEscapes 0 0 0 items).map (c :: ·)
  | 0, _, _, .byte b :: items =>
      if b < 0x80 then (decodeEscapes 0 0 0 items).map (UInt16.ofNat b :: ·)
      else if b < 0xC0 then none
      else if b < 0xE0 then decodeEscapes 1 (b - 0xC0) 0x80 items
      else if b < 0xF0 then decodeEscapes 2 (b - 0xE0) 0x800 items
      else if b < 0xF8 then decodeEscapes 3 (b - 0xF0) 0x10000 items
      else none
  | missing + 1, point, least, .byte b :: items =>
      if 0x80 ≤ b ∧ b < 0xC0 then
        let point := 0x40 * point + (b - 0x80)
        if missing ≠ 0 then decodeEscapes missing point least items
        else if least ≤ point ∧ point < 0x110000 ∧
            ¬(0xD800 ≤ point ∧ point < 0xE000) then
          (decodeEscapes 0 0 0 items).map (codeUnits point ++ ·)
        else none
      else none
  | _ + 1, _, _, _ => none

def decodeURIComponent (text : Text) : Except JsError Text :=
  match (escapes text).bind (decodeEscapes 0 0 0) with
  | some decoded => .ok decoded
  | none => .error { message := ascii "URI malformed" }

end Ecmascript
