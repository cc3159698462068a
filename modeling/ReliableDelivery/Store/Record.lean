import ReliableDelivery.Store.Keys

/-!
# Message records and their wire form

The record types of `MessageStore.h` and the functions of `MessageStore.cpp`
that turn Redis replies into records.  Numbers arrive as text and are read with
`strtoull` and `strtol`, which skip blanks, accept a sign, saturate, and stop at
the first byte that is no digit.
-/

namespace ReliableDelivery

open Decimal Redis

/-- Delivery status of a message, as the server sees it. -/
inductive MessageStatus where
  | pending
  | delivered
  | acked
  | failed
  deriving DecidableEq, Repr

/-- The server's record of one message. -/
structure MessageRecord where
  msgId : UInt64 := 0
  fromUid : UInt64 := 0
  toUid : UInt64 := 0
  content : Bytes := []
  clientMsgId : Bytes := []
  status : MessageStatus := .pending
  createdAtMs : UInt64 := 0
  deliveredAtMs : UInt64 := 0
  ackedAtMs : UInt64 := 0
  retryCount : ℤ := 0
  deriving DecidableEq, Repr

/-- Result of one `createMessage` call. -/
structure CreateMessageResult where
  record : MessageRecord := {}
  created : Bool := false
  ok : Bool := false
  deriving DecidableEq, Repr

/-! ## Reading numbers -/

def isSpace (b : UInt8) : Bool :=
  b = 32 || (9 ≤ b && b ≤ 13)

/-- The sign, if any, and the text behind it. -/
def splitSign : Bytes → Bool × Bytes
  | 43 :: text => (false, text)
  | 45 :: text => (true, text)
  | text => (false, text)

/-- The part of a byte string that C string functions see. -/
def cString (text : Bytes) : Bytes :=
  text.takeWhile fun b => b ≠ 0

/-- The sign, the digits and the unread rest of a C number.  Without a digit
nothing is read at all. -/
def scanNumber (text : Bytes) : Bool × Bytes × Bytes :=
  let body := splitSign ((cString text).dropWhile isSpace)
  let digits := body.2.takeWhile isDigit
  if digits = [] then (false, [], cString text)
  else (body.1, digits, body.2.dropWhile isDigit)

/-- Value and unread rest of `strtoull(text, &end, 10)`. -/
def strtoull (text : Bytes) : UInt64 × Bytes :=
  match scanNumber text with
  | (negative, digits, rest) =>
      let n := value 0 digits
      if 2 ^ 64 ≤ n then (UInt64.ofNat (2 ^ 64 - 1), rest)
      else (if negative then -UInt64.ofNat n else UInt64.ofNat n, rest)

/-- Value and unread rest of `strtol(text, &end, 10)` for a 64-bit `long`. -/
def strtol (text : Bytes) : ℤ × Bytes :=
  match scanNumber text with
  | (negative, digits, rest) =>
      let n : ℤ := value 0 digits
      if negative then (max (-n) (-2 ^ 63), rest)
      else (min n (2 ^ 63 - 1), rest)

/-- Conversion of a `long` to a 32-bit `int`. -/
def toInt32 (n : ℤ) : ℤ :=
  n.bmod (2 ^ 32)

/-! ## Reading replies -/

def replyToString : Reply → Option Bytes
  | .bulk text => some text
  | .integer n => some (renderInteger n)
  | _ => none

def parseUint64 (reply : Reply) : Option UInt64 := do
  let text ← replyToString reply
  if text = [] then none
  else
    match strtoull text with
    | (n, []) => some n
    | _ => none

def parseInt (reply : Reply) : Option ℤ := do
  let text ← replyToString reply
  if text = [] then none
  else
    match strtol text with
    | (n, []) => some (toInt32 n)
    | _ => none

/-- The stored text of a status. -/
def MessageStatus.text : MessageStatus → Bytes
  | .pending => literal "Pending"
  | .delivered => literal "Delivered"
  | .acked => literal "Acked"
  | .failed => literal "Failed"

def parseStatus (reply : Reply) : Option MessageStatus := do
  let text ← replyToString reply
  if text = literal "Pending" then some .pending
  else if text = literal "Delivered" then some .delivered
  else if text = literal "Acked" then some .acked
  else if text = literal "Failed" then some .failed
  else none

/-- Assemble a record from ten consecutive array elements. -/
def buildRecordFromFields (reply : Reply) (offset : ℕ) : Option MessageRecord :=
  match reply with
  | .array elements =>
      match elements.drop offset with
      | f₀ :: f₁ :: f₂ :: f₃ :: f₄ :: f₅ :: f₆ :: f₇ :: f₈ :: f₉ :: _ => do
          let msgId ← parseUint64 f₀
          let fromUid ← parseUint64 f₁
          let toUid ← parseUint64 f₂
          let content ← replyToString f₃
          let clientMsgId ← replyToString f₄
          let status ← parseStatus f₅
          let createdAtMs ← parseUint64 f₆
          let deliveredAtMs ← parseUint64 f₇
          let ackedAtMs ← parseUint64 f₈
          let retryCount ← parseInt f₉
          some { msgId, fromUid, toUid, content, clientMsgId, status,
                 createdAtMs, deliveredAtMs, ackedAtMs, retryCount }
      | _ => none
  | _ => none

/-- Read the reply of the create script: the created mark and a record. -/
def buildCreateResult (reply : Reply) : Option CreateMessageResult :=
  match reply with
  | .array elements =>
      if elements.length = 11 then do
        let created ← replyToString (elements.headD .nil)
        let record ← buildRecordFromFields reply 1
        some { record, created := created = literal "1", ok := true }
      else none
  | _ => none

/-- A state script answers the integer one when it made its update. -/
def replyIsTrue : Option Reply → Bool
  | some (.integer n) => n = 1
  | _ => false

/-! ## Reading back what was written -/

theorem cString_render (n : ℕ) : cString (render n) = render n := by
  apply List.takeWhile_eq_self_iff.mpr
  intro b hb
  have hdigit := isDigit_of_mem_render b hb
  by_contra hzero
  simp only [ne_eq, decide_not, Bool.not_eq_eq_eq_not, Bool.not_true,
    decide_eq_false_iff_not, not_not] at hzero
  subst hzero
  exact absurd hdigit (by decide)

theorem scanNumber_render (n : ℕ) :
    scanNumber (render n) = (false, render n, []) := by
  obtain ⟨b, rest, hb, hdigit⟩ := head_render_isDigit n
  have hspace : isSpace b = false := by
    revert b
    intro b _ hdigit
    simp only [isDigit, Bool.and_eq_true, decide_eq_true_eq] at hdigit
    simp only [isSpace, Bool.or_eq_false_iff, decide_eq_false_iff_not,
      Bool.and_eq_false_iff]
    constructor
    · rintro rfl
      exact absurd hdigit.1 (by decide)
    · right
      intro hle
      exact absurd (le_trans hdigit.1 hle) (by decide)
  have hskip : (render n).dropWhile isSpace = render n := by
    rw [hb, List.dropWhile_cons, hspace]
    rfl
  have hsign : splitSign (render n) = (false, render n) := by
    rw [hb]
    unfold splitSign
    split
    · simp_all [isDigit]
    · simp_all [isDigit]
    · rfl
  simp only [scanNumber, cString_render, hskip, hsign, takeWhile_render,
    dropWhile_render, if_neg (render_ne_nil n)]

theorem strtoull_toText (n : UInt64) : strtoull (toText n) = (n, []) := by
  have hlt : n.toNat < 2 ^ 64 := n.toNat_lt
  rw [strtoull, toText, scanNumber_render]
  simp only [value_render, if_neg (Nat.not_le.mpr hlt), Bool.false_eq_true,
    if_false, UInt64.ofNat_toNat]

theorem strtol_render {n : ℕ} (hn : n < 2 ^ 63) :
    strtol (render n) = ((n : ℤ), []) := by
  rw [strtol, scanNumber_render]
  simp only [value_render, Bool.false_eq_true, if_false]
  congr 1
  omega

theorem toText_ne_nil (n : UInt64) : toText n ≠ [] :=
  render_ne_nil _

@[simp] theorem parseUint64_toText (n : UInt64) :
    parseUint64 (.bulk (toText n)) = some n := by
  simp [parseUint64, replyToString, toText_ne_nil, strtoull_toText]

theorem parseInt_render {n : ℕ} (hn : n < 2 ^ 63) :
    parseInt (.bulk (render n)) = some (toInt32 n) := by
  simp [parseInt, replyToString, render_ne_nil, strtol_render hn]

@[simp] theorem parseStatus_text (status : MessageStatus) :
    parseStatus (.bulk status.text) = some status := by
  cases status <;> rfl

end ReliableDelivery
