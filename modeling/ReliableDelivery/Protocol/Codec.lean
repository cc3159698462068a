import ReliableDelivery.Protocol.Envelope
import ReliableDelivery.Support.Framing

/-!
# The codec

`MessageCodec` of `Codec.h`: a frame is the length of the serialized envelope,
in four bytes with the most significant first, and the serialized envelope.
What protobuf does with an envelope is a parameter.
-/

namespace ReliableDelivery

open Decimal

/-- `SerializeToString` and `ParseFromArray` of an envelope. -/
structure Protobuf where
  serialize : Envelope → Option Bytes
  parse : Bytes → Option Envelope

namespace MessageCodec

def kHeaderLength : ℕ := 4

def kDefaultMaxFrameLength : ℕ := 1024 * 1024

/-- A 32-bit length in network byte order. -/
def htonl (n : ℕ) : Bytes :=
  [UInt8.ofNat (n / 2 ^ 24), UInt8.ofNat (n / 2 ^ 16), UInt8.ofNat (n / 2 ^ 8),
    UInt8.ofNat n]

/-- The length in the first four bytes. -/
def ntohl (header : Bytes) : ℕ :=
  header.foldl (fun n b => n * 2 ^ 8 + b.toNat) 0

/-- A whole frame, or nothing if the envelope cannot be serialized. -/
def encode (serialize : Envelope → Option Bytes) (envelope : Envelope) :
    Bytes :=
  match serialize envelope with
  | none => []
  | some body => htonl (body.length % 2 ^ 32) ++ body

inductive DecodeStatus where
  | ok
  | needMoreData
  | invalidLength
  | parseError
  deriving DecidableEq, Repr

structure DecodeResult where
  status : DecodeStatus := .needMoreData
  envelopes : List Envelope := []
  consumedBytes : ℕ := 0
  deriving DecidableEq

/-- The loop of `DecodeAll`, from `offset` on, with the envelopes found so far.
Every round that goes on consumes at least a header, so `fuel` rounds are enough
when there are no more than `fuel` bytes. -/
def decodeLoop (pb : Protobuf) (data : Bytes) (maxFrameLength : ℕ) :
    (fuel offset : ℕ) → List Envelope → DecodeResult
  | 0, offset, envelopes =>
      { status := .ok, envelopes, consumedBytes := offset }
  | fuel + 1, offset, envelopes =>
      if offset < data.length then
        let remainingBytes := data.length - offset
        if remainingBytes < kHeaderLength then
          { status := .needMoreData, envelopes, consumedBytes := offset }
        else
          let bodyLength := ntohl ((data.drop offset).take kHeaderLength)
          if bodyLength = 0 ∨ maxFrameLength < bodyLength then
            { status := .invalidLength, envelopes, consumedBytes := offset }
          else
            let frameLength := kHeaderLength + bodyLength
            if remainingBytes < frameLength then
              { status := .needMoreData, envelopes, consumedBytes := offset }
            else
              match pb.parse
                  ((data.drop (offset + kHeaderLength)).take bodyLength) with
              | none =>
                  { status := .parseError, envelopes, consumedBytes := offset }
              | some envelope =>
                  decodeLoop pb data maxFrameLength fuel (offset + frameLength)
                    (envelopes ++ [envelope])
      else { status := .ok, envelopes, consumedBytes := offset }

def decodeAll (pb : Protobuf) (data : Bytes) (maxFrameLength : ℕ) :
    DecodeResult :=
  decodeLoop pb data maxFrameLength data.length 0 []

/-! ## Lengths -/

theorem ntohl_htonl {n : ℕ} (hn : n < 2 ^ 32) : ntohl (htonl n) = n := by
  simp only [htonl, ntohl, List.foldl_cons, List.foldl_nil, UInt8.toNat_ofNat']
  omega

theorem length_htonl (n : ℕ) : (htonl n).length = kHeaderLength :=
  rfl

/-! ## The frame format -/

section Format

variable (pb : Protobuf) (maxFrameLength : ℕ)

/-- What a byte stream begins with. -/
def front (data : Bytes) : Front DecodeStatus Envelope :=
  if data.length < kHeaderLength then .incomplete
  else
    let bodyLength := ntohl (data.take kHeaderLength)
    if bodyLength = 0 ∨ maxFrameLength < bodyLength then .invalid .invalidLength
    else if data.length < kHeaderLength + bodyLength then .incomplete
    else
      match pb.parse ((data.drop kHeaderLength).take bodyLength) with
      | none => .invalid .parseError
      | some envelope => .frame envelope (kHeaderLength + bodyLength)

variable {pb maxFrameLength} {data : Bytes} {envelope : Envelope} {n : ℕ}

theorem front_frame_iff :
    front pb maxFrameLength data = .frame envelope n ↔
      kHeaderLength ≤ data.length ∧
      n = kHeaderLength + ntohl (data.take kHeaderLength) ∧
      ntohl (data.take kHeaderLength) ≠ 0 ∧
      ntohl (data.take kHeaderLength) ≤ maxFrameLength ∧
      n ≤ data.length ∧
      pb.parse ((data.drop kHeaderLength).take
        (ntohl (data.take kHeaderLength))) = some envelope := by
  simp only [front]
  split
  · next h => simp only [reduceCtorEq, false_iff]; omega
  · next hheader =>
      split
      · next h => simp only [reduceCtorEq, false_iff]; omega
      · next hlength =>
          rw [not_or, not_lt] at hlength
          split
          · next h =>
              simp only [reduceCtorEq, false_iff, not_and]
              intro _ hn _ _ hle
              omega
          · next hbody =>
              have hheader' : kHeaderLength ≤ data.length := by omega
              have hbody' : kHeaderLength + ntohl (data.take kHeaderLength) ≤
                  data.length := by omega
              cases hparse : pb.parse ((data.drop kHeaderLength).take
                  (ntohl (data.take kHeaderLength))) with
              | none => simp
              | some envelope' =>
                  simp only [Front.frame.injEq, Option.some.injEq, hheader',
                    true_and, hlength.1, hlength.2, ne_eq, not_false_eq_true]
                  constructor
                  · rintro ⟨rfl, rfl⟩
                    exact ⟨rfl, hbody', rfl⟩
                  · rintro ⟨rfl, -, rfl⟩
                    exact ⟨rfl, rfl⟩

theorem front_append {more : Bytes} (h : kHeaderLength ≤ data.length) :
    ntohl ((data ++ more).take kHeaderLength) =
      ntohl (data.take kHeaderLength) := by
  rw [List.take_append_of_le_length h]

/-- The frame format as a framing: no verdict changes when more bytes come. -/
def frames (pb : Protobuf) (maxFrameLength : ℕ) :
    Framing UInt8 DecodeStatus Envelope where
  front := front pb maxFrameLength
  sizePos data envelope n h := by
    obtain ⟨-, rfl, hpos, -⟩ := front_frame_iff.mp h
    omega
  sizeLe data envelope n h := by
    obtain ⟨-, -, -, -, hle, -⟩ := front_frame_iff.mp h
    exact hle
  frameStable data more envelope n h := by
    obtain ⟨hheader, hn, hpos, hmax, hle, hparse⟩ := front_frame_iff.mp h
    refine front_frame_iff.mpr ⟨?_, ?_, ?_, ?_, ?_, ?_⟩
    · rw [List.length_append]
      omega
    · rw [front_append hheader, hn]
    · rw [front_append hheader]
      exact hpos
    · rw [front_append hheader]
      exact hmax
    · rw [List.length_append]
      omega
    · have hbody : ntohl (data.take kHeaderLength) ≤
          (data.drop kHeaderLength).length := by
        rw [List.length_drop]
        omega
      rw [front_append hheader, List.drop_append_of_le_length hheader,
        List.take_append_of_le_length hbody, hparse]
  invalidStable data more status h := by
    by_cases hheader : data.length < kHeaderLength
    · simp only [front, hheader, if_true, reduceCtorEq] at h
    · have hle : kHeaderLength ≤ data.length := by omega
      have hheader' : ¬(data ++ more).length < kHeaderLength := by
        rw [List.length_append]
        omega
      simp only [front, hheader, hheader', if_false, front_append hle] at h ⊢
      split at h
      · next hlength =>
          rw [if_pos hlength]
          exact h
      · next hlength =>
          rw [if_neg hlength]
          by_cases hbody : data.length <
              kHeaderLength + ntohl (data.take kHeaderLength)
          · simp only [hbody, if_true, reduceCtorEq] at h
          · have hbody' : ¬(data ++ more).length <
                kHeaderLength + ntohl (data.take kHeaderLength) := by
              rw [List.length_append]
              omega
            have hsame : ((data ++ more).drop kHeaderLength).take
                (ntohl (data.take kHeaderLength)) =
                  (data.drop kHeaderLength).take
                    (ntohl (data.take kHeaderLength)) := by
              rw [List.drop_append_of_le_length hle,
                List.take_append_of_le_length]
              rw [List.length_drop]
              omega
            simp only [hbody, hbody', if_false, hsame] at h ⊢
            exact h

end Format

/-! ## The decoder finds the frames -/

section Decode

variable {pb : Protobuf} {maxFrameLength : ℕ}

/-- The status the decoder reports for the way a reading ended. -/
def statusOf : Option DecodeStatus → Bytes → DecodeStatus
  | some status, _ => status
  | none, rest => if rest = [] then .ok else .needMoreData

/-- The result that belongs to a reading of `data` from `offset` on. -/
def resultOf (data : Bytes) (envelopes : List Envelope)
    (s : List Envelope × Option DecodeStatus × Bytes) : DecodeResult where
  status := statusOf s.2.1 s.2.2
  envelopes := envelopes ++ s.1
  consumedBytes := data.length - s.2.2.length

/-- At the end of the input there is nothing to read. -/
theorem split_at_end {data : Bytes} {offset : ℕ} (hend : offset = data.length) :
    (frames pb maxFrameLength).split (data.drop offset) = ([], none, []) := by
  rw [hend, List.drop_length]
  exact Framing.split_incomplete rfl

theorem decodeLoop_eq (data : Bytes) (fuel offset : ℕ)
    (envelopes : List Envelope) (hoffset : offset ≤ data.length)
    (hfuel : data.length - offset ≤ fuel) :
    decodeLoop pb data maxFrameLength fuel offset envelopes =
      resultOf data envelopes
        ((frames pb maxFrameLength).split (data.drop offset)) := by
  induction fuel generalizing offset envelopes with
  | zero =>
      have hend : offset = data.length := by omega
      rw [split_at_end hend]
      simp [decodeLoop, resultOf, statusOf, hend]
  | succ fuel ih =>
      have hlength : (data.drop offset).length = data.length - offset :=
        List.length_drop
      have hconsumed : data.length - (data.length - offset) = offset := by
        omega
      simp only [decodeLoop]
      split
      · next hmore =>
          have hne : data.drop offset ≠ [] := by
            intro hnil
            rw [hnil, List.length_nil] at hlength
            omega
          cases hfront : (frames pb maxFrameLength).front (data.drop offset) with
          | incomplete =>
              rw [Framing.split_incomplete hfront]
              simp only [frames, front, hlength] at hfront
              simp only [resultOf, statusOf, hne, if_false, hlength, hconsumed,
                List.append_nil]
              split at hfront
              · next hheader => rw [if_pos hheader]
              · next hheader =>
                  rw [if_neg hheader]
                  split at hfront
                  · cases hfront
                  · next hvalid =>
                      rw [if_neg hvalid]
                      split at hfront
                      · next hbody => rw [if_pos hbody]
                      · split at hfront
                        · cases hfront
                        · cases hfront
          | invalid status =>
              rw [Framing.split_invalid hfront]
              simp only [frames, front, hlength] at hfront
              simp only [resultOf, statusOf, hlength, hconsumed,
                List.append_nil]
              split at hfront
              · cases hfront
              · next hheader =>
                  rw [if_neg hheader]
                  split at hfront
                  · next hinvalid =>
                      rw [if_pos hinvalid]
                      cases hfront
                      rfl
                  · next hvalid =>
                      rw [if_neg hvalid]
                      split at hfront
                      · cases hfront
                      · next hbody =>
                          rw [if_neg hbody]
                          split at hfront
                          · next hparse =>
                              rw [List.drop_drop] at hparse
                              rw [hparse]
                              cases hfront
                              rfl
                          · cases hfront
          | frame envelope n =>
              rw [Framing.split_frame hfront]
              obtain ⟨hheader, hn, hpos, hmax, hle, hparse⟩ :=
                front_frame_iff.mp hfront
              rw [hlength] at hheader hle
              rw [List.drop_drop] at hparse
              rw [if_neg (by omega), if_neg (by omega), if_neg (by omega),
                hparse, ← hn]
              simp only
              rw [ih (offset + n) _ (by omega) (by omega), List.drop_drop]
              simp only [resultOf, List.append_assoc, List.singleton_append]
      · next hdone =>
          have hend : offset = data.length := by omega
          rw [split_at_end hend]
          simp [resultOf, statusOf, hend]

/-- The decoder returns all frames of its input, the status of what follows
them, and how far they reach. -/
theorem decodeAll_eq (data : Bytes) :
    decodeAll pb data maxFrameLength =
      resultOf data [] ((frames pb maxFrameLength).split data) := by
  rw [decodeAll, decodeLoop_eq data data.length 0 [] (by omega) (by omega),
    List.drop_zero]

/-- What is left after the consumed bytes is the rest of the reading. -/
theorem drop_consumedBytes (data : Bytes) :
    data.drop (decodeAll pb data maxFrameLength).consumedBytes =
      ((frames pb maxFrameLength).split data).2.2 := by
  rw [decodeAll_eq]
  simp only [resultOf]
  obtain ⟨start, hstart⟩ := (frames pb maxFrameLength).rest_suffix data
  have hlength := congrArg List.length hstart
  rw [List.length_append] at hlength
  have hstartLength : data.length -
      ((frames pb maxFrameLength).split data).2.2.length = start.length := by
    omega
  rw [hstartLength]
  nth_rewrite 1 [← hstart]
  rw [List.drop_left]

/-- Both receivers erase the consumed bytes from their buffer, if there are
any. -/
theorem erase_consumedBytes (data : Bytes) :
    (if 0 < (decodeAll pb data maxFrameLength).consumedBytes then
        data.drop (decodeAll pb data maxFrameLength).consumedBytes
      else data) = ((frames pb maxFrameLength).split data).2.2 := by
  rw [← drop_consumedBytes]
  split
  · rfl
  · next hzero =>
      have hconsumed : (decodeAll pb data maxFrameLength).consumedBytes = 0 := by
        omega
      rw [hconsumed, List.drop_zero]

/-- The envelopes are the frames. -/
theorem decodeAll_envelopes (data : Bytes) :
    (decodeAll pb data maxFrameLength).envelopes =
      ((frames pb maxFrameLength).split data).1 := by
  rw [decodeAll_eq]
  rfl

/-- What was decoded was the body of a frame of acceptable length. -/
theorem exists_body_of_mem {data : Bytes} {envelope : Envelope}
    (h : envelope ∈ (decodeAll pb data maxFrameLength).envelopes) :
    ∃ body : Bytes, body.length ≤ maxFrameLength ∧
      pb.parse body = some envelope := by
  rw [decodeAll_envelopes] at h
  revert h
  apply (frames pb maxFrameLength).front_induction
    (P := fun data => envelope ∈ ((frames pb maxFrameLength).split data).1 →
      ∃ body : Bytes, body.length ≤ maxFrameLength ∧
        pb.parse body = some envelope)
  · intro data hfront h
    rw [Framing.split_incomplete hfront] at h
    cases h
  · intro data status hfront h
    rw [Framing.split_invalid hfront] at h
    cases h
  · intro data first n hfront ih h
    rw [Framing.split_frame hfront] at h
    rcases List.mem_cons.mp h with rfl | hrest
    · obtain ⟨-, -, -, hmax, -, hparse⟩ := front_frame_iff.mp hfront
      refine ⟨_, ?_, hparse⟩
      rw [List.length_take]
      omega
    · exact ih hrest

/-- The error statuses are those of an invalid frame. -/
theorem isError_iff (data : Bytes) :
    (decodeAll pb data maxFrameLength).status = .invalidLength ∨
        (decodeAll pb data maxFrameLength).status = .parseError ↔
      ((frames pb maxFrameLength).split data).2.1 ≠ none := by
  have hrest := (frames pb maxFrameLength).front_rest data
  rw [decodeAll_eq]
  simp only [resultOf]
  cases herror : ((frames pb maxFrameLength).split data).2.1 with
  | none =>
      simp only [statusOf, ne_eq, not_true_eq_false, iff_false]
      split
      · simp
      · simp
  | some status =>
      rw [herror] at hrest
      simp only [statusOf, ne_eq, reduceCtorEq, not_false_eq_true, iff_true]
      simp only [frames, front] at hrest
      split at hrest
      · cases hrest
      · split at hrest
        · cases hrest
          exact .inl rfl
        · split at hrest
          · cases hrest
          · split at hrest
            · cases hrest
              exact .inr rfl
            · cases hrest

end Decode

/-! ## Encoding -/

section Encode

variable {pb : Protobuf}

/-- A body that the decoder accepts and that parses to the envelope. -/
def Encodable (pb : Protobuf) (envelope : Envelope) : Prop :=
  ∃ body, pb.serialize envelope = some body ∧ 1 ≤ body.length ∧
    body.length ≤ kDefaultMaxFrameLength

/-- An encoded envelope is a frame, whatever follows it. -/
theorem front_encode {envelope : Envelope}
    (hinverse : ∀ body, pb.serialize envelope = some body →
      pb.parse body = some envelope)
    (h : Encodable pb envelope) (more : Bytes) :
    (frames pb kDefaultMaxFrameLength).front (encode pb.serialize envelope ++ more) =
      .frame envelope (encode pb.serialize envelope).length := by
  obtain ⟨body, hbody, hpos, hmax⟩ := h
  have hsmall : body.length < 2 ^ 32 := by
    rw [kDefaultMaxFrameLength] at hmax
    omega
  have hencode : encode pb.serialize envelope = htonl body.length ++ body := by
    simp only [encode, hbody, Nat.mod_eq_of_lt hsmall]
  have hheader : (encode pb.serialize envelope ++ more).take kHeaderLength =
      htonl body.length := by
    rw [hencode, List.append_assoc, ← length_htonl body.length,
      List.take_left]
  have hrest : (encode pb.serialize envelope ++ more).drop kHeaderLength =
      body ++ more := by
    rw [hencode, List.append_assoc, ← length_htonl body.length,
      List.drop_left]
  have hsize : (encode pb.serialize envelope).length = kHeaderLength + body.length := by
    rw [hencode, List.length_append, length_htonl]
  refine front_frame_iff.mpr ⟨?_, ?_, ?_, ?_, ?_, ?_⟩
  · rw [List.length_append, hsize]
    omega
  · rw [hheader, ntohl_htonl hsmall, hsize]
  · rw [hheader, ntohl_htonl hsmall]
    omega
  · rw [hheader, ntohl_htonl hsmall]
    exact hmax
  · rw [List.length_append]
    omega
  · rw [hrest, hheader, ntohl_htonl hsmall, List.take_left]
    exact hinverse body hbody

/-- An encoding that the decoder does not accept, whatever follows it. -/
theorem front_encode_invalid {envelope : Envelope}
    (hsize : ∀ body, pb.serialize envelope = some body → body.length < 2 ^ 32)
    (hframe : encode pb.serialize envelope ≠ [])
    (h : ¬Encodable pb envelope) (more : Bytes) :
    (frames pb kDefaultMaxFrameLength).front (encode pb.serialize envelope ++ more) =
      .invalid .invalidLength := by
  cases hbody : pb.serialize envelope with
  | none =>
      simp only [encode, hbody] at hframe
      exact absurd rfl hframe
  | some body =>
      have hsmall := hsize body hbody
      have hencode : encode pb.serialize envelope = htonl body.length ++ body := by
        simp only [encode, hbody, Nat.mod_eq_of_lt hsmall]
      have hheader : (encode pb.serialize envelope ++ more).take kHeaderLength =
          htonl body.length := by
        rw [hencode, List.append_assoc, ← length_htonl body.length, List.take_left]
      have hlength :
          ¬(encode pb.serialize envelope ++ more).length < kHeaderLength := by
        rw [hencode, List.length_append, List.length_append, length_htonl]
        omega
      have hlong : body.length = 0 ∨ kDefaultMaxFrameLength < body.length := by
        by_contra hneither
        exact h ⟨body, hbody, by omega, by omega⟩
      change front pb kDefaultMaxFrameLength _ = _
      simp only [front]
      rw [if_neg hlength, hheader, ntohl_htonl hsmall, if_pos hlong]

/-- A frame that is too long is refused. -/
theorem decodeAll_encode_long {envelope : Envelope} {body : Bytes}
    (hbody : pb.serialize envelope = some body)
    (hlong : kDefaultMaxFrameLength < body.length)
    (hsmall : body.length < 2 ^ 32) :
    (decodeAll pb (encode pb.serialize envelope) kDefaultMaxFrameLength).status =
      .invalidLength := by
  have hencode : encode pb.serialize envelope = htonl body.length ++ body := by
    simp only [encode, hbody, Nat.mod_eq_of_lt hsmall]
  have hheader : (encode pb.serialize envelope).take kHeaderLength =
      htonl body.length := by
    rw [hencode, ← length_htonl body.length, List.take_left]
  have hlength : ¬(encode pb.serialize envelope).length < kHeaderLength := by
    rw [hencode, List.length_append, length_htonl]
    omega
  have hfront : (frames pb kDefaultMaxFrameLength).front
      (encode pb.serialize envelope) = .invalid .invalidLength := by
    change front pb kDefaultMaxFrameLength (encode pb.serialize envelope) = _
    simp only [front]
    rw [if_neg hlength, hheader, ntohl_htonl hsmall, if_pos (.inr hlong)]
  rw [decodeAll_eq, Framing.split_invalid hfront]
  rfl

/-- The frames of concatenated encodings are the envelopes. -/
theorem split_encode {envelopes : List Envelope}
    (hinverse : ∀ envelope ∈ envelopes, ∀ body,
      pb.serialize envelope = some body → pb.parse body = some envelope)
    (h : ∀ envelope ∈ envelopes, Encodable pb envelope) :
    (frames pb kDefaultMaxFrameLength).split
        (envelopes.map (encode pb.serialize)).flatten = (envelopes, none, []) := by
  induction envelopes with
  | nil => exact Framing.split_incomplete rfl
  | cons envelope envelopes ih =>
      have hrest := ih (fun e he => hinverse e (by simp [he]))
        fun e he => h e (by simp [he])
      rw [List.map_cons, List.flatten_cons,
        Framing.split_frame (front_encode (hinverse envelope (by simp))
          (h envelope (by simp)) _),
        List.drop_left, hrest]

/-- The beginning of an accepted encoding is an incomplete frame. -/
theorem front_take_encode {envelope : Envelope} {k : ℕ}
    (hinverse : ∀ body, pb.serialize envelope = some body →
      pb.parse body = some envelope)
    (h : Encodable pb envelope) (hk : k < (encode pb.serialize envelope).length) :
    (frames pb kDefaultMaxFrameLength).front
      ((encode pb.serialize envelope).take k) = .incomplete := by
  have hfront := front_encode hinverse h []
  rw [List.append_nil] at hfront
  refine Framing.front_of_proper_prefix
    (a := envelope) (n := (encode pb.serialize envelope).length)
    (?_ : (frames pb kDefaultMaxFrameLength).front
      (_ ++ (encode pb.serialize envelope).drop k) = _) ?_
  · rw [List.take_append_drop]
    exact hfront
  · rw [List.length_take]
    omega

/-- The beginning of an encoding holds no frame. -/
theorem split_take_encode {envelope : Envelope} {k : ℕ}
    (hinverse : ∀ body, pb.serialize envelope = some body →
      pb.parse body = some envelope)
    (hsize : ∀ body, pb.serialize envelope = some body → body.length < 2 ^ 32)
    (hk : k < (encode pb.serialize envelope).length) :
    ((frames pb kDefaultMaxFrameLength).split
      ((encode pb.serialize envelope).take k)).1 = [] := by
  have hframe : encode pb.serialize envelope ≠ [] :=
    List.ne_nil_of_length_pos (by omega)
  by_cases h : Encodable pb envelope
  · rw [Framing.split_incomplete (front_take_encode hinverse h hk)]
  · have hfront := front_encode_invalid hsize hframe h []
    rw [List.append_nil, ← List.take_append_drop k (encode pb.serialize envelope)]
      at hfront
    exact Framing.split_of_invalid_prefix hfront

/-- Of any encodings in a row the decoder finds those before the first that it does
not accept. -/
theorem split_encode_prefix {envelopes : List Envelope} {rest : Bytes}
    (hinverse : ∀ envelope body, pb.serialize envelope = some body →
      pb.parse body = some envelope)
    (hsize : ∀ envelope body, pb.serialize envelope = some body →
      body.length < 2 ^ 32)
    (hframes : ∀ envelope ∈ envelopes, encode pb.serialize envelope ≠ [])
    (hrest : ((frames pb kDefaultMaxFrameLength).split rest).1 = []) :
    ((frames pb kDefaultMaxFrameLength).split
        ((envelopes.map (encode pb.serialize)).flatten ++ rest)).1 <+: envelopes ∧
      ∀ envelope ∈ ((frames pb kDefaultMaxFrameLength).split
        ((envelopes.map (encode pb.serialize)).flatten ++ rest)).1,
        Encodable pb envelope := by
  induction envelopes with
  | nil =>
      rw [List.map_nil, List.flatten_nil, List.nil_append, hrest]
      exact ⟨List.prefix_rfl, List.forall_mem_nil _⟩
  | cons envelope envelopes ih =>
      rw [List.map_cons, List.flatten_cons, List.append_assoc]
      by_cases h : Encodable pb envelope
      · obtain ⟨hbegins, hall⟩ := ih fun e he => hframes e (List.mem_cons_of_mem _ he)
        rw [Framing.split_frame (front_encode (hinverse envelope) h _), List.drop_left]
        exact ⟨List.cons_prefix_cons.mpr ⟨rfl, hbegins⟩,
          List.forall_mem_cons.mpr ⟨h, hall⟩⟩
      · rw [Framing.split_invalid (front_encode_invalid (hsize envelope)
          (hframes envelope List.mem_cons_self) h _)]
        exact ⟨List.nil_prefix, List.forall_mem_nil _⟩

end Encode

end MessageCodec

end ReliableDelivery
