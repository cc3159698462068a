import ReliableDelivery.Protocol.Codec

/-!
# What the decoder accepts

`Frames` is the frame format as a grammar: a frame is a length of at least one
and at most the maximum, in four bytes, and as many bytes that parse to an
envelope.  `decodeAll_accepts_grammar` says that the decoder takes the longest
sequence of frames its input begins with, and that its status is a statement
about the bytes behind them.

The decoder reads memory by address and length.  `decodeAllChecked` is the
decoder with these reads guarded; that it never fails is the bounds argument.
-/

namespace ReliableDelivery

open Decimal

namespace MessageCodec

/-! ## Reads within bounds -/

/-- Read `size` bytes at `offset`.  A negative size, or a byte at or behind the
end, is a failure. -/
def readBytes (data : Bytes) (offset : ℕ) (size : ℤ) : Option Bytes :=
  if 0 ≤ size ∧ offset + size ≤ data.length then
    some ((data.drop offset).take size.toNat)
  else none

/-- The loop of `DecodeAll` with guarded reads.  The length of a body is handed
to the parser as an `int`.  Running out of fuel is a failure too. -/
def decodeLoopChecked (pb : Protobuf) (data : Bytes) (maxFrameLength : ℕ) :
    (fuel offset : ℕ) → List Envelope → Option DecodeResult
  | 0, offset, envelopes =>
      if offset < data.length then none
      else some { status := .ok, envelopes, consumedBytes := offset }
  | fuel + 1, offset, envelopes =>
      if offset < data.length then
        let remainingBytes := data.length - offset
        if remainingBytes < kHeaderLength then
          some { status := .needMoreData, envelopes, consumedBytes := offset }
        else
          (readBytes data offset kHeaderLength).bind fun header =>
          let bodyLength := ntohl header
          if bodyLength = 0 ∨ maxFrameLength < bodyLength then
            some { status := .invalidLength, envelopes,
                   consumedBytes := offset }
          else
            let frameLength := kHeaderLength + bodyLength
            if remainingBytes < frameLength then
              some { status := .needMoreData, envelopes,
                     consumedBytes := offset }
            else
              (readBytes data (offset + kHeaderLength)
                ((bodyLength : ℤ).bmod (2 ^ 32))).bind fun body =>
              match pb.parse body with
              | none =>
                  some { status := .parseError, envelopes,
                         consumedBytes := offset }
              | some envelope =>
                  decodeLoopChecked pb data maxFrameLength fuel
                    (offset + frameLength) (envelopes ++ [envelope])
      else some { status := .ok, envelopes, consumedBytes := offset }

def decodeAllChecked (pb : Protobuf) (data : Bytes) (maxFrameLength : ℕ) :
    Option DecodeResult :=
  decodeLoopChecked pb data maxFrameLength data.length 0 []

theorem readBytes_eq {data : Bytes} {offset n : ℕ}
    (h : offset + n ≤ data.length) :
    readBytes data offset n = some ((data.drop offset).take n) := by
  rw [readBytes, if_pos (by omega), Int.toNat_natCast]

theorem decodeLoopChecked_eq {pb : Protobuf} {data : Bytes} {maxFrameLength : ℕ}
    (hmax : maxFrameLength < 2 ^ 31) (fuel offset : ℕ)
    (envelopes : List Envelope) (hfuel : data.length - offset ≤ fuel) :
    decodeLoopChecked pb data maxFrameLength fuel offset envelopes =
      some (decodeLoop pb data maxFrameLength fuel offset envelopes) := by
  induction fuel generalizing offset envelopes with
  | zero => rw [decodeLoopChecked, decodeLoop, if_neg (by omega)]
  | succ fuel ih =>
      simp only [decodeLoopChecked, decodeLoop]
      split
      · split
        · rfl
        · next hheader =>
            rw [readBytes_eq (by omega), Option.bind_some]
            split
            · rfl
            · next hlength =>
                split
                · rfl
                · next hbody =>
                    rw [Int.bmod_eq_of_le (by omega) (by omega),
                      readBytes_eq (by omega), Option.bind_some]
                    cases pb.parse ((data.drop (offset + kHeaderLength)).take
                        (ntohl ((data.drop offset).take kHeaderLength))) with
                    | none => rfl
                    | some envelope =>
                        exact ih _ _ (by rw [kHeaderLength]; omega)
      · rfl

/-! ## The grammar -/

section Grammar

variable (pb : Protobuf) (maxFrameLength : ℕ)

/-- A concatenation of frames, and the envelopes in them. -/
inductive Frames : Bytes → List Envelope → Prop where
  | nil : Frames [] []
  | cons {body bytes : Bytes} {envelope : Envelope} {envelopes : List Envelope}
      (hpos : 1 ≤ body.length) (hmax : body.length ≤ maxFrameLength)
      (hparse : pb.parse body = some envelope)
      (hrest : Frames bytes envelopes) :
      Frames (htonl body.length ++ body ++ bytes) (envelope :: envelopes)

variable {pb maxFrameLength}

theorem exists_four_bytes {header : Bytes} (h : header.length = kHeaderLength) :
    ∃ a b c d, header = [a, b, c, d] :=
  ⟨_, _, _, _, List.eq_getElem_of_length_eq_four header h⟩

theorem htonl_ntohl {header : Bytes} (h : header.length = kHeaderLength) :
    htonl (ntohl header) = header := by
  obtain ⟨a, b, c, d, rfl⟩ := exists_four_bytes h
  have ha := a.toNat_lt
  have hb := b.toNat_lt
  have hc := c.toNat_lt
  have hd := d.toNat_lt
  simp only [htonl, ntohl, List.foldl_cons, List.foldl_nil, List.cons.injEq,
    and_true, ← UInt8.toNat_inj, UInt8.toNat_ofNat']
  omega

theorem ntohl_lt {header : Bytes} (h : header.length = kHeaderLength) :
    ntohl header < 2 ^ 32 := by
  obtain ⟨a, b, c, d, rfl⟩ := exists_four_bytes h
  have ha := a.toNat_lt
  have hb := b.toNat_lt
  have hc := c.toNat_lt
  have hd := d.toNat_lt
  simp only [ntohl, List.foldl_cons, List.foldl_nil]
  omega

/-- Four bytes are a length. -/
theorem exists_header {data : Bytes} (h : ¬data.length < kHeaderLength) :
    ∃ n more, n < 2 ^ 32 ∧ data = htonl n ++ more := by
  have hheader : (data.take kHeaderLength).length = kHeaderLength := by
    rw [List.length_take]
    omega
  refine ⟨ntohl (data.take kHeaderLength), data.drop kHeaderLength,
    ntohl_lt hheader, ?_⟩
  rw [htonl_ntohl hheader, List.take_append_drop]

theorem htonl_append_inj {n n' : ℕ} {more more' : Bytes} (hn : n < 2 ^ 32)
    (hn' : n' < 2 ^ 32) (h : htonl n ++ more = htonl n' ++ more') :
    n = n' ∧ more = more' := by
  obtain ⟨hheader, hmore⟩ := List.append_inj h rfl
  refine ⟨?_, hmore⟩
  rw [← ntohl_htonl hn, hheader, ntohl_htonl hn']

/-- What a stream with a length in front begins with. -/
theorem front_header {n : ℕ} (hn : n < 2 ^ 32) (more : Bytes) :
    front pb maxFrameLength (htonl n ++ more) =
      if n = 0 ∨ maxFrameLength < n then .invalid .invalidLength
      else if more.length < n then .incomplete
      else
        match pb.parse (more.take n) with
        | none => .invalid .parseError
        | some envelope => .frame envelope (kHeaderLength + n) := by
  have hlength : (htonl n ++ more).length = kHeaderLength + more.length := by
    rw [List.length_append, length_htonl]
  have htake : (htonl n ++ more).take kHeaderLength = htonl n :=
    List.take_left' (length_htonl n)
  have hdrop : (htonl n ++ more).drop kHeaderLength = more :=
    List.drop_left' (length_htonl n)
  have hnotShort : ¬kHeaderLength + more.length < kHeaderLength := by omega
  cases hparse : pb.parse (more.take n) <;>
    simp only [front, hlength, htake, hdrop, ntohl_htonl hn, if_neg hnotShort,
      Nat.add_lt_add_iff_left, hparse]

theorem front_short {data : Bytes} (h : data.length < kHeaderLength) :
    front pb maxFrameLength data = .incomplete := by
  rw [front, if_pos h]

/-- A stream that is empty behind its frames or ends within a frame. -/
theorem front_incomplete_iff {data : Bytes} :
    front pb maxFrameLength data = .incomplete ↔
      data.length < kHeaderLength ∨ ∃ n more, n < 2 ^ 32 ∧
        data = htonl n ++ more ∧ 1 ≤ n ∧ n ≤ maxFrameLength ∧
        data.length < kHeaderLength + n := by
  by_cases hshort : data.length < kHeaderLength
  · exact iff_of_true (front_short hshort) (.inl hshort)
  · obtain ⟨n, more, hn, rfl⟩ := exists_header hshort
    have hlength : (htonl n ++ more).length = kHeaderLength + more.length := by
      rw [List.length_append, length_htonl]
    rw [front_header hn]
    constructor
    · intro h
      refine .inr ⟨n, more, hn, rfl, ?_⟩
      split at h
      · cases h
      · split at h
        · omega
        · split at h
          · cases h
          · cases h
    · rintro (h | ⟨n', more', hn', heq, hpos, hle, hlt⟩)
      · exact absurd h hshort
      · obtain ⟨rfl, rfl⟩ := htonl_append_inj hn hn' heq
        rw [if_neg (by omega), if_pos (by omega)]

/-- A stream whose next length is not one of a frame. -/
theorem front_invalidLength_iff {data : Bytes} :
    front pb maxFrameLength data = .invalid .invalidLength ↔
      ∃ n more, n < 2 ^ 32 ∧ data = htonl n ++ more ∧
        (n = 0 ∨ maxFrameLength < n) := by
  constructor
  · intro h
    by_cases hshort : data.length < kHeaderLength
    · rw [front_short hshort] at h
      cases h
    · obtain ⟨n, more, hn, rfl⟩ := exists_header hshort
      rw [front_header hn] at h
      split at h
      · next hinvalid => exact ⟨n, more, hn, rfl, hinvalid⟩
      · split at h
        · cases h
        · split at h
          · cases h
          · cases h
  · rintro ⟨n, more, hn, rfl, hinvalid⟩
    rw [front_header hn, if_pos hinvalid]

/-- A body in front, behind its length. -/
theorem front_body {body : Bytes} (hpos : 1 ≤ body.length)
    (hle : body.length ≤ maxFrameLength) (hmax : maxFrameLength < 2 ^ 31)
    (more : Bytes) :
    front pb maxFrameLength (htonl body.length ++ body ++ more) =
      match pb.parse body with
      | none => .invalid .parseError
      | some envelope => .frame envelope (kHeaderLength + body.length) := by
  rw [List.append_assoc, front_header (by omega), if_neg (by omega),
    if_neg (by rw [List.length_append]; omega), List.take_left]

/-- A stream whose next body is complete. -/
theorem exists_body {data : Bytes} {a : Front DecodeStatus Envelope}
    (h : front pb maxFrameLength data = a) (hincomplete : a ≠ .incomplete)
    (hlength : a ≠ .invalid .invalidLength) :
    ∃ body more : Bytes, data = htonl body.length ++ body ++ more ∧
      1 ≤ body.length ∧ body.length ≤ maxFrameLength ∧
      a = match pb.parse body with
        | none => .invalid .parseError
        | some envelope => .frame envelope (kHeaderLength + body.length) := by
  by_cases hshort : data.length < kHeaderLength
  · rw [front_short hshort] at h
    exact absurd h.symm hincomplete
  · obtain ⟨n, more, hn, rfl⟩ := exists_header hshort
    rw [front_header hn] at h
    split at h
    · exact absurd h.symm hlength
    · next hvalid =>
        split at h
        · exact absurd h.symm hincomplete
        · next hcomplete =>
            have htake : (more.take n).length = n := by
              rw [List.length_take]
              omega
            refine ⟨more.take n, more.drop n, ?_, ?_, ?_, ?_⟩
            · rw [htake, List.append_assoc, List.take_append_drop]
            · omega
            · omega
            · rw [htake]
              exact h.symm

/-- A stream whose next body does not parse. -/
theorem front_parseError_iff (hmax : maxFrameLength < 2 ^ 31) {data : Bytes} :
    front pb maxFrameLength data = .invalid .parseError ↔
      ∃ body more : Bytes, data = htonl body.length ++ body ++ more ∧
        1 ≤ body.length ∧ body.length ≤ maxFrameLength ∧
        pb.parse body = none := by
  constructor
  · intro h
    obtain ⟨body, more, hdata, hpos, hle, hparse⟩ :=
      exists_body h (by simp) (by simp)
    refine ⟨body, more, hdata, hpos, hle, ?_⟩
    split at hparse
    · assumption
    · cases hparse
  · rintro ⟨body, more, rfl, hpos, hle, hparse⟩
    rw [front_body hpos hle hmax, hparse]

/-- A stream that begins with a frame. -/
theorem front_frame_iff_body (hmax : maxFrameLength < 2 ^ 31) {data : Bytes}
    {envelope : Envelope} {size : ℕ} :
    front pb maxFrameLength data = .frame envelope size ↔
      ∃ body more : Bytes, data = htonl body.length ++ body ++ more ∧
        1 ≤ body.length ∧ body.length ≤ maxFrameLength ∧
        pb.parse body = some envelope ∧ size = kHeaderLength + body.length := by
  constructor
  · intro h
    obtain ⟨body, more, hdata, hpos, hle, hparse⟩ :=
      exists_body h (by simp) (by simp)
    refine ⟨body, more, hdata, hpos, hle, ?_⟩
    split at hparse
    · cases hparse
    · next envelope' hparse' =>
        cases hparse
        exact ⟨hparse', rfl⟩
  · rintro ⟨body, more, rfl, hpos, hle, hparse, rfl⟩
    rw [front_body hpos hle hmax, hparse]

/-- Reading frames from the front is writing them one after another. -/
theorem reads_iff (hmax : maxFrameLength < 2 ^ 31) {data rest : Bytes}
    {envelopes : List Envelope} :
    (frames pb maxFrameLength).Reads data envelopes rest ↔
      ∃ bytes, data = bytes ++ rest ∧
        Frames pb maxFrameLength bytes envelopes := by
  constructor
  · intro h
    induction h with
    | stop xs => exact ⟨[], rfl, .nil⟩
    | @frame xs rest envelope envelopes size hfront hrest ih =>
        obtain ⟨bytes, hbytes, hframes⟩ := ih
        obtain ⟨body, more, rfl, hpos, hle, hparse, rfl⟩ :=
          (front_frame_iff_body hmax).mp hfront
        have hdrop : (htonl body.length ++ body ++ more).drop
            (kHeaderLength + body.length) = more := by
          apply List.drop_left'
          rw [List.length_append, length_htonl]
        rw [hdrop] at hbytes
        refine ⟨htonl body.length ++ body ++ bytes, ?_,
          .cons hpos hle hparse hframes⟩
        rw [hbytes, ← List.append_assoc]
  · rintro ⟨bytes, rfl, hframes⟩
    induction hframes with
    | nil => exact .stop _
    | @cons body bytes envelope envelopes hpos hle hparse hrest ih =>
        have hfront : front pb maxFrameLength
            (htonl body.length ++ body ++ bytes ++ rest) =
              .frame envelope (kHeaderLength + body.length) :=
          (front_frame_iff_body hmax).mpr ⟨body, bytes ++ rest,
            List.append_assoc _ bytes rest, hpos, hle, hparse, rfl⟩
        have hdrop : (htonl body.length ++ body ++ bytes ++ rest).drop
            (kHeaderLength + body.length) = bytes ++ rest := by
          rw [List.append_assoc _ bytes]
          apply List.drop_left'
          rw [List.length_append, length_htonl]
        apply Framing.Reads.frame hfront
        rw [hdrop]
        exact ih

theorem front_invalid_cases {data : Bytes} {status : DecodeStatus}
    (h : front pb maxFrameLength data = .invalid status) :
    status = .invalidLength ∨ status = .parseError := by
  by_cases hlength : status = .invalidLength
  · exact .inl hlength
  · obtain ⟨body, more, -, -, -, hparse⟩ :=
      exists_body h (by simp) (by simpa using hlength)
    split at hparse
    · cases hparse
      exact .inr rfl
    · cases hparse

/-- The status is told by what the rest begins with. -/
theorem status_of_rest (data : Bytes) :
    let result := decodeAll pb data maxFrameLength
    let rest := data.drop result.consumedBytes
    (front pb maxFrameLength rest = .incomplete ∧
      result.status = if rest = [] then .ok else .needMoreData) ∨
    (front pb maxFrameLength rest = .invalid .invalidLength ∧
      result.status = .invalidLength) ∨
    (front pb maxFrameLength rest = .invalid .parseError ∧
      result.status = .parseError) := by
  simp only [drop_consumedBytes]
  have hrest : front pb maxFrameLength
      ((frames pb maxFrameLength).split data).2.2 = _ :=
    (frames pb maxFrameLength).front_rest data
  rw [decodeAll_eq]
  cases herror : ((frames pb maxFrameLength).split data).2.1 with
  | none =>
      rw [herror] at hrest
      left
      refine ⟨hrest, ?_⟩
      simp only [resultOf, herror]
      rfl
  | some status =>
      rw [herror] at hrest
      right
      simp only [resultOf, herror, statusOf]
      rcases front_invalid_cases hrest with rfl | rfl
      · exact .inl ⟨hrest, rfl⟩
      · exact .inr ⟨hrest, rfl⟩

end Grammar

/-- The decoder accepts exactly the frame grammar.  It never reads behind the end
of its input.  What it consumes is the longest concatenation of frames the input
begins with, and its status says how the rest begins. -/
theorem decodeAll_accepts_grammar (pb : Protobuf) (data : Bytes)
    (maxFrameLength : ℕ) (hmax : maxFrameLength < 2 ^ 31) :
    let result := decodeAll pb data maxFrameLength
    let rest := data.drop result.consumedBytes
    decodeAllChecked pb data maxFrameLength = some result ∧
    result.consumedBytes ≤ data.length ∧
    Frames pb maxFrameLength (data.take result.consumedBytes)
      result.envelopes ∧
    (∀ bytes envelopes, Frames pb maxFrameLength bytes envelopes →
      bytes <+: data →
        envelopes <+: result.envelopes ∧ bytes.length ≤ result.consumedBytes) ∧
    (result.status = .ok ↔ rest = []) ∧
    (result.status = .needMoreData ↔ rest ≠ [] ∧
      (rest.length < kHeaderLength ∨ ∃ n more, n < 2 ^ 32 ∧
        rest = htonl n ++ more ∧ 1 ≤ n ∧ n ≤ maxFrameLength ∧
        rest.length < kHeaderLength + n)) ∧
    (result.status = .invalidLength ↔
      ∃ n more, n < 2 ^ 32 ∧ rest = htonl n ++ more ∧
        (n = 0 ∨ maxFrameLength < n)) ∧
    (result.status = .parseError ↔
      ∃ body more : Bytes, rest = htonl body.length ++ body ++ more ∧
        1 ≤ body.length ∧ body.length ≤ maxFrameLength ∧
        pb.parse body = none) := by
  have hchecked : decodeAllChecked pb data maxFrameLength =
      some (decodeAll pb data maxFrameLength) :=
    decodeLoopChecked_eq hmax data.length 0 [] (by omega)
  have hconsumed : (decodeAll pb data maxFrameLength).consumedBytes ≤
      data.length := by
    rw [decodeAll_eq]
    exact Nat.sub_le _ _
  have hparse := (frames pb maxFrameLength).parse_split data
  rw [← drop_consumedBytes, ← decodeAll_envelopes] at hparse
  obtain ⟨bytes, hbytes, hframes⟩ := (reads_iff hmax).mp hparse.1
  have htake : data.take (decodeAll pb data maxFrameLength).consumedBytes =
      bytes := by
    have hsplit := List.take_append_drop
      (decodeAll pb data maxFrameLength).consumedBytes data
    exact List.append_cancel_right (hsplit.trans hbytes)
  refine ⟨hchecked, hconsumed, by rw [htake]; exact hframes, ?_, ?_⟩
  · rintro bytes' envelopes' hframes' ⟨rest', hdata⟩
    have hreads : (frames pb maxFrameLength).Reads data envelopes' rest' :=
      (reads_iff hmax).mpr ⟨bytes', hdata.symm, hframes'⟩
    obtain ⟨hinitial, hlength⟩ := hreads.prefix_split
    rw [← decodeAll_envelopes] at hinitial
    rw [← drop_consumedBytes, List.length_drop] at hlength
    refine ⟨hinitial, ?_⟩
    have hsum := congrArg List.length hdata
    rw [List.length_append] at hsum
    omega
  · rw [← front_invalidLength_iff, ← front_parseError_iff hmax,
      ← front_incomplete_iff]
    have hempty : ∀ {rest : Bytes}, rest = [] →
        front pb maxFrameLength rest = .incomplete := by
      rintro rest rfl
      rfl
    have hstatus := @status_of_rest pb maxFrameLength data
    simp only at hstatus
    rcases hstatus with ⟨hfront, hstatus⟩ | ⟨hfront, hstatus⟩ |
      ⟨hfront, hstatus⟩
    · rw [hfront, hstatus]
      split
      · next hnil => simp [hnil]
      · next hmore => simp [hmore]
    · have hmore := mt hempty (by rw [hfront]; simp)
      rw [hfront, hstatus]
      simp [hmore]
    · have hmore := mt hempty (by rw [hfront]; simp)
      rw [hfront, hstatus]
      simp [hmore]

/-- What protobuf does with the body of one heartbeat. -/
def parseHeartbeat : Protobuf where
  serialize _ := none
  parse body :=
    if body = [8, 6, 16, 1] then some { type := .heartbeat, seq := 1 } else none

/-- A heartbeat, and a length of zero behind it. -/
theorem decodeAll_accepts_grammar_heartbeat :
    (decodeAll parseHeartbeat [0, 0, 0, 4, 8, 6, 16, 1, 0, 0, 0, 0]
      1024).status = .invalidLength := by
  have haccepts := decodeAll_accepts_grammar parseHeartbeat
    [0, 0, 0, 4, 8, 6, 16, 1, 0, 0, 0, 0] 1024 (by decide)
  obtain ⟨-, -, -, -, -, -, hlength, -⟩ := haccepts
  exact hlength.mpr ⟨0, [], by decide, by decide, .inl rfl⟩

end MessageCodec

end ReliableDelivery
