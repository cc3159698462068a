import Mathlib.Tactic

/-!
# Frames in a stream

A framing decides, from what has arrived so far, whether a stream begins with a
complete frame, with something that can never become one, or with too little to
tell.  The first two answers must not change when more arrives.  From that alone
it follows that a stream can be cut into pieces anywhere: reading the pieces one
after another, and keeping the unread rest, finds the frames of the whole.
-/

/-- What a stream begins with. -/
inductive Front (ε α : Type) where
  | incomplete
  | invalid (e : ε)
  | frame (a : α) (size : ℕ)

structure Framing (β ε α : Type) where
  front : List β → Front ε α
  sizePos : ∀ xs a n, front xs = .frame a n → 0 < n
  sizeLe : ∀ xs a n, front xs = .frame a n → n ≤ xs.length
  frameStable : ∀ xs ys a n, front xs = .frame a n →
    front (xs ++ ys) = .frame a n
  invalidStable : ∀ xs ys e, front xs = .invalid e →
    front (xs ++ ys) = .invalid e

namespace Framing

variable {β ε α : Type} (F : Framing β ε α)

/-- A reading of a stream: some frames from its front, and what is left. -/
inductive Reads : List β → List α → List β → Prop where
  | stop (xs : List β) : Reads xs [] xs
  | frame {xs rest : List β} {a : α} {as : List α} {n : ℕ}
      (hfront : F.front xs = .frame a n) (hrest : Reads (xs.drop n) as rest) :
      Reads xs (a :: as) rest

/-- A reading that goes on as long as there are complete frames. -/
def Parse (xs : List β) (as : List α) (rest : List β) : Prop :=
  F.Reads xs as rest ∧ ∀ a n, F.front rest ≠ .frame a n

theorem length_drop_lt {xs : List β} {a : α} {n : ℕ}
    (h : F.front xs = .frame a n) : (xs.drop n).length < xs.length := by
  have hpos := F.sizePos xs a n h
  have hle := F.sizeLe xs a n h
  rw [List.length_drop]
  omega

/-- The frames of a stream, the error that ended them, and what is left. -/
def split (xs : List β) : List α × Option ε × List β :=
  match h : F.front xs with
  | .incomplete => ([], none, xs)
  | .invalid e => ([], some e, xs)
  | .frame a n =>
      have := F.length_drop_lt h
      let rest := split (xs.drop n)
      (a :: rest.1, rest.2)
termination_by xs.length
decreasing_by assumption

variable {F}
variable {xs ys rest : List β} {as : List α} {a : α} {n : ℕ} {e : ε}

theorem split_incomplete (h : F.front xs = .incomplete) :
    F.split xs = ([], none, xs) := by
  rw [split]
  split
  · rfl
  · next heq => rw [h] at heq; cases heq
  · next heq => rw [h] at heq; cases heq

theorem split_invalid (h : F.front xs = .invalid e) :
    F.split xs = ([], some e, xs) := by
  rw [split]
  split
  · next heq => rw [h] at heq; cases heq
  · next heq => rw [h] at heq; cases heq; rfl
  · next heq => rw [h] at heq; cases heq

theorem split_frame (h : F.front xs = .frame a n) :
    F.split xs = (a :: (F.split (xs.drop n)).1, (F.split (xs.drop n)).2) := by
  rw [split]
  split
  · next heq => rw [h] at heq; cases heq
  · next heq => rw [h] at heq; cases heq
  · next heq => rw [h] at heq; cases heq; rfl

/-- Induction along the frames of a stream. -/
theorem front_induction {P : List β → Prop}
    (hincomplete : ∀ xs, F.front xs = .incomplete → P xs)
    (hinvalid : ∀ xs e, F.front xs = .invalid e → P xs)
    (hframe : ∀ xs a n, F.front xs = .frame a n → P (xs.drop n) → P xs)
    (xs : List β) : P xs := by
  induction hlen : xs.length using Nat.strong_induction_on generalizing xs with
  | _ len ih =>
      cases h : F.front xs with
      | incomplete => exact hincomplete xs h
      | invalid e => exact hinvalid xs e h
      | frame a n =>
          apply hframe xs a n h
          apply ih (xs.drop n).length _ (xs.drop n) rfl
          rw [← hlen]
          exact F.length_drop_lt h

/-- The rest begins with no frame, and with an error exactly if one was
found. -/
theorem front_rest (F : Framing β ε α) (xs : List β) :
    F.front (F.split xs).2.2 =
      match (F.split xs).2.1 with
      | none => .incomplete
      | some e => .invalid e := by
  apply front_induction (P := fun xs => F.front (F.split xs).2.2 =
    match (F.split xs).2.1 with
    | none => .incomplete
    | some e => .invalid e)
  · intro xs h
    rw [split_incomplete h]
    exact h
  · intro xs e h
    rw [split_invalid h]
    exact h
  · intro xs a n h ih
    rw [split_frame h]
    exact ih

/-- The rest is the end of the stream. -/
theorem rest_suffix (F : Framing β ε α) (xs : List β) :
    (F.split xs).2.2 <:+ xs := by
  apply front_induction (P := fun xs => (F.split xs).2.2 <:+ xs)
  · intro xs h
    rw [split_incomplete h]
  · intro xs e h
    rw [split_invalid h]
  · intro xs a n h ih
    rw [split_frame h]
    exact ih.trans (List.drop_suffix n xs)

/-- The computed frames are a parse. -/
theorem parse_split (xs : List β) :
    F.Parse xs (F.split xs).1 (F.split xs).2.2 := by
  constructor
  · apply front_induction (P := fun xs =>
      F.Reads xs (F.split xs).1 (F.split xs).2.2)
    · intro xs h
      rw [split_incomplete h]
      exact .stop xs
    · intro xs e h
      rw [split_invalid h]
      exact .stop xs
    · intro xs a n h ih
      rw [split_frame h]
      exact .frame h ih
  · intro a n
    rw [front_rest]
    cases (F.split xs).2.1 with
    | none => simp
    | some e => simp

/-- A stream has one parse. -/
theorem Parse.eq_split (h : F.Parse xs as rest) :
    as = (F.split xs).1 ∧ rest = (F.split xs).2.2 := by
  obtain ⟨hreads, hend⟩ := h
  induction hreads with
  | stop xs =>
      cases hfront : F.front xs with
      | incomplete =>
          rw [split_incomplete hfront]
          exact ⟨rfl, rfl⟩
      | invalid e =>
          rw [split_invalid hfront]
          exact ⟨rfl, rfl⟩
      | frame a n => exact absurd hfront (hend a n)
  | frame hfront hrest ih =>
      obtain ⟨has, hrest'⟩ := ih hend
      rw [split_frame hfront]
      exact ⟨by rw [has], hrest'⟩

/-- No reading finds more than the computed one. -/
theorem Reads.prefix_split (h : F.Reads xs as rest) :
    as <+: (F.split xs).1 ∧ (F.split xs).2.2.length ≤ rest.length := by
  induction h with
  | stop xs => exact ⟨List.nil_prefix, (F.rest_suffix xs).length_le⟩
  | frame hfront hrest ih =>
      rw [split_frame hfront]
      exact ⟨List.cons_prefix_cons.mpr ⟨rfl, ih.1⟩, ih.2⟩

/-- More input after a reading without error: go on from the rest. -/
theorem split_append (ys : List β) (xs : List β)
    (h : (F.split xs).2.1 = none) :
    F.split (xs ++ ys) =
      ((F.split xs).1 ++ (F.split ((F.split xs).2.2 ++ ys)).1,
        (F.split ((F.split xs).2.2 ++ ys)).2) := by
  revert h
  apply front_induction (P := fun xs => (F.split xs).2.1 = none →
    F.split (xs ++ ys) =
      ((F.split xs).1 ++ (F.split ((F.split xs).2.2 ++ ys)).1,
        (F.split ((F.split xs).2.2 ++ ys)).2))
  · intro xs h _
    rw [split_incomplete h]
    rfl
  · intro xs e h hnone
    rw [split_invalid h] at hnone
    cases hnone
  · intro xs a n h ih hnone
    rw [split_frame h] at hnone
    have hrest := ih hnone
    have hdrop : (xs ++ ys).drop n = xs.drop n ++ ys := by
      rw [List.drop_append_of_le_length (F.sizeLe xs a n h)]
    rw [split_frame (F.frameStable xs ys a n h), hdrop, hrest, split_frame h]
    rfl

/-- More input after an error changes nothing but the rest. -/
theorem split_append_error (ys : List β) (xs : List β)
    (h : (F.split xs).2.1 = some e) :
    F.split (xs ++ ys) = ((F.split xs).1, some e, (F.split xs).2.2 ++ ys) := by
  revert h
  apply front_induction (P := fun xs => (F.split xs).2.1 = some e →
    F.split (xs ++ ys) = ((F.split xs).1, some e, (F.split xs).2.2 ++ ys))
  · intro xs h hsome
    rw [split_incomplete h] at hsome
    cases hsome
  · intro xs e' h hsome
    rw [split_invalid h] at hsome
    rw [split_invalid (F.invalidStable xs ys e' h), split_invalid h]
    rw [Option.some.injEq] at hsome
    rw [hsome]
  · intro xs a n h ih hsome
    rw [split_frame h] at hsome
    have hrest := ih hsome
    have hdrop : (xs ++ ys).drop n = xs.drop n ++ ys := by
      rw [List.drop_append_of_le_length (F.sizeLe xs a n h)]
    rw [split_frame (F.frameStable xs ys a n h), hdrop, hrest, split_frame h]

/-- More input only adds to the frames. -/
theorem split_prefix (h : xs <+: ys) : (F.split xs).1 <+: (F.split ys).1 := by
  obtain ⟨more, rfl⟩ := h
  cases hxs : (F.split xs).2.1 with
  | none =>
      rw [split_append more xs hxs]
      exact List.prefix_append _ _
  | some e => rw [split_append_error more xs hxs]

/-- A proper beginning of a frame is incomplete. -/
theorem front_of_proper_prefix (h : F.front (xs ++ ys) = .frame a n)
    (hlt : xs.length < n) : F.front xs = .incomplete := by
  cases hxs : F.front xs with
  | incomplete => rfl
  | invalid e =>
      rw [F.invalidStable xs ys e hxs] at h
      cases h
  | frame b m =>
      have heq := F.frameStable xs ys b m hxs
      rw [h, Front.frame.injEq] at heq
      have hle := F.sizeLe xs b m hxs
      omega

/-- A beginning of something invalid holds no frame. -/
theorem split_of_invalid_prefix (h : F.front (xs ++ ys) = .invalid e) :
    (F.split xs).1 = [] := by
  cases hxs : F.front xs with
  | incomplete => rw [split_incomplete hxs]
  | invalid e => rw [split_invalid hxs]
  | frame b m =>
      rw [F.frameStable xs ys b m hxs] at h
      cases h

/-! ## Reading a stream in pieces -/

/-- A reader that keeps the unread rest.  A piece that leads to an error yields
no frames at all. -/
def feed (F : Framing β ε α) (buffer piece : List β) : List α × List β :=
  let s := F.split (buffer ++ piece)
  match s.2.1 with
  | none => (s.1, s.2.2)
  | some _ => ([], s.2.2)

/-- The frames found in a list of pieces, and the rest after the last one. -/
def feedAll (F : Framing β ε α) (buffer : List β) :
    List (List β) → List α × List β
  | [] => ([], buffer)
  | piece :: pieces =>
      let first := F.feed buffer piece
      let others := F.feedAll first.2 pieces
      (first.1 ++ others.1, others.2)

/-- One more piece at the end. -/
theorem feedAll_concat (buffer : List β) (pieces : List (List β)) (piece : List β) :
    F.feedAll buffer (pieces ++ [piece]) =
      ((F.feedAll buffer pieces).1 ++ (F.feed (F.feedAll buffer pieces).2 piece).1,
        (F.feed (F.feedAll buffer pieces).2 piece).2) := by
  induction pieces generalizing buffer with
  | nil => simp [feedAll]
  | cons first pieces ih => simp only [List.cons_append, feedAll, ih, List.append_assoc]

theorem feed_ok {buffer piece : List β}
    (h : (F.split (buffer ++ piece)).2.1 = none) :
    F.feed buffer piece =
      ((F.split (buffer ++ piece)).1, (F.split (buffer ++ piece)).2.2) := by
  simp only [feed, h]

theorem feed_error {buffer piece : List β}
    (h : (F.split (buffer ++ piece)).2.1 = some e) :
    F.feed buffer piece = ([], (F.split (buffer ++ piece)).2.2) := by
  simp only [feed, h]

/-- Once the rest begins with an error, no piece yields a frame. -/
theorem feedAll_invalid {buffer : List β} (h : F.front buffer = .invalid e)
    (pieces : List (List β)) : (F.feedAll buffer pieces).1 = [] := by
  induction pieces generalizing buffer with
  | nil => rfl
  | cons piece pieces ih =>
      have hfront := F.invalidStable buffer piece e h
      have hsplit := split_invalid hfront
      have hfeed : F.feed buffer piece = ([], buffer ++ piece) := by
        rw [feed_error (e := e) (by rw [hsplit]), hsplit]
      simp only [feedAll, hfeed, List.nil_append]
      exact ih hfront

/-- Without an error in the whole, the pieces yield all frames of the whole and
leave its rest. -/
theorem feedAll_ok {buffer : List β} {pieces : List (List β)}
    (h : (F.split (buffer ++ pieces.flatten)).2.1 = none)
    (hbuffer : F.front buffer = .incomplete) :
    F.feedAll buffer pieces =
      ((F.split (buffer ++ pieces.flatten)).1,
        (F.split (buffer ++ pieces.flatten)).2.2) := by
  induction pieces generalizing buffer with
  | nil =>
      rw [List.flatten_nil, List.append_nil, split_incomplete hbuffer]
      rfl
  | cons piece pieces ih =>
      rw [List.flatten_cons, ← List.append_assoc] at h ⊢
      cases hfirst : (F.split (buffer ++ piece)).2.1 with
      | some e =>
          rw [split_append_error _ _ hfirst] at h
          cases h
      | none =>
          have hrest := F.front_rest (buffer ++ piece)
          rw [hfirst] at hrest
          rw [split_append _ _ hfirst] at h ⊢
          simp only [feedAll, feed_ok hfirst, ih h hrest]

/-- In any case the pieces yield a prefix of the frames of the whole. -/
theorem feedAll_prefix {buffer : List β} (pieces : List (List β)) :
    (F.feedAll buffer pieces).1 <+: (F.split (buffer ++ pieces.flatten)).1 := by
  induction pieces generalizing buffer with
  | nil => exact List.nil_prefix
  | cons piece pieces ih =>
      rw [List.flatten_cons, ← List.append_assoc]
      cases hfirst : (F.split (buffer ++ piece)).2.1 with
      | some e =>
          have hrest := F.front_rest (buffer ++ piece)
          rw [hfirst] at hrest
          simp only [feedAll, feed_error hfirst, feedAll_invalid hrest,
            List.append_nil]
          exact List.nil_prefix
      | none =>
          rw [split_append _ _ hfirst]
          simp only [feedAll, feed_ok hfirst]
          exact (List.prefix_append_right_inj _).mpr ih

/-- A reader that yields the frames before an error and then stops. -/
def drainAll (F : Framing β ε α) (buffer : List β) : List (List β) → List α
  | [] => []
  | piece :: pieces =>
      let s := F.split (buffer ++ piece)
      match s.2.1 with
      | none => s.1 ++ F.drainAll s.2.2 pieces
      | some _ => s.1

/-- However the stream is cut, it yields all frames before the first error. -/
theorem drainAll_eq {buffer : List β} (pieces : List (List β))
    (hbuffer : F.front buffer = .incomplete) :
    F.drainAll buffer pieces = (F.split (buffer ++ pieces.flatten)).1 := by
  induction pieces generalizing buffer with
  | nil =>
      rw [List.flatten_nil, List.append_nil, split_incomplete hbuffer]
      rfl
  | cons piece pieces ih =>
      rw [List.flatten_cons, ← List.append_assoc]
      have hrest := F.front_rest (buffer ++ piece)
      cases hfirst : (F.split (buffer ++ piece)).2.1 with
      | some e =>
          rw [split_append_error _ _ hfirst]
          simp only [drainAll, hfirst]
      | none =>
          rw [hfirst] at hrest
          rw [split_append _ _ hfirst]
          simp only [drainAll, hfirst, ih hrest]

/-- The piece in which the first error shows completes no frame. -/
def ErrorAlone (F : Framing β ε α) (buffer : List β)
    (pieces : List (List β)) : Prop :=
  ∀ before piece after, pieces = before ++ piece :: after →
    (F.split (buffer ++ before.flatten)).2.1 = none →
    (F.split (buffer ++ before.flatten ++ piece)).2.1 ≠ none →
    (F.split (buffer ++ before.flatten ++ piece)).1 =
      (F.split (buffer ++ before.flatten)).1

theorem errorAlone_nil {buffer : List β} : F.ErrorAlone buffer [] := by
  intro before piece after hpieces
  simp at hpieces

/-- An error in the first piece. -/
theorem errorAlone_cons_error {buffer piece : List β} {pieces : List (List β)}
    (hbuffer : F.front buffer = .incomplete)
    (hpiece : (F.split (buffer ++ piece)).2.1 = some e) :
    F.ErrorAlone buffer (piece :: pieces) ↔
      (F.split (buffer ++ piece)).1 = [] := by
  constructor
  · intro h
    have hfirst := h [] piece pieces rfl
    rw [List.flatten_nil, List.append_nil, split_incomplete hbuffer] at hfirst
    exact hfirst rfl (by simp [hpiece])
  · intro hnone before piece' after hpieces hbefore hafter
    rcases before with _ | ⟨first, before⟩
    · rw [List.nil_append, List.cons.injEq] at hpieces
      obtain ⟨rfl, -⟩ := hpieces
      rw [List.flatten_nil, List.append_nil, split_incomplete hbuffer]
      exact hnone
    · rw [List.cons_append, List.cons.injEq] at hpieces
      obtain ⟨rfl, -⟩ := hpieces
      rw [List.flatten_cons, ← List.append_assoc,
        split_append_error _ _ hpiece] at hbefore
      cases hbefore

/-- No error in the first piece. -/
theorem errorAlone_cons_ok {buffer piece : List β} {pieces : List (List β)}
    (hpiece : (F.split (buffer ++ piece)).2.1 = none) :
    F.ErrorAlone buffer (piece :: pieces) ↔
      F.ErrorAlone (F.split (buffer ++ piece)).2.2 pieces := by
  have hshift : ∀ more : List β, F.split (buffer ++ (piece ++ more)) =
      ((F.split (buffer ++ piece)).1 ++
          (F.split ((F.split (buffer ++ piece)).2.2 ++ more)).1,
        (F.split ((F.split (buffer ++ piece)).2.2 ++ more)).2) := by
    intro more
    rw [← List.append_assoc, split_append _ _ hpiece]
  constructor
  · intro h before piece' after hpieces hbefore hafter
    have hlater := h (piece :: before) piece' after (by rw [hpieces]; rfl)
    rw [List.flatten_cons, List.append_assoc, List.append_assoc,
      hshift, hshift, ← List.append_assoc] at hlater
    exact List.append_cancel_left (hlater hbefore hafter)
  · intro h before piece' after hpieces hbefore hafter
    rcases before with _ | ⟨first, before⟩
    · rw [List.nil_append, List.cons.injEq] at hpieces
      obtain ⟨rfl, -⟩ := hpieces
      rw [List.flatten_nil, List.append_nil] at hafter
      exact absurd hpiece hafter
    · rw [List.cons_append, List.cons.injEq] at hpieces
      obtain ⟨rfl, hpieces⟩ := hpieces
      rw [List.flatten_cons, List.append_assoc, List.append_assoc,
        hshift, ← List.append_assoc] at hafter
      rw [List.flatten_cons, hshift] at hbefore
      rw [List.flatten_cons, List.append_assoc, List.append_assoc,
        hshift, hshift, ← List.append_assoc,
        h before piece' after hpieces hbefore hafter]

/-- The reader that yields nothing for a piece with an error finds all frames
exactly if such a piece completes none. -/
theorem feedAll_eq_split_iff {buffer : List β} {pieces : List (List β)}
    (hbuffer : F.front buffer = .incomplete) :
    (F.feedAll buffer pieces).1 = (F.split (buffer ++ pieces.flatten)).1 ↔
      F.ErrorAlone buffer pieces := by
  induction pieces generalizing buffer with
  | nil =>
      rw [List.flatten_nil, List.append_nil, split_incomplete hbuffer]
      exact iff_of_true rfl errorAlone_nil
  | cons piece pieces ih =>
      rw [List.flatten_cons, ← List.append_assoc]
      have hrest := F.front_rest (buffer ++ piece)
      cases hfirst : (F.split (buffer ++ piece)).2.1 with
      | some e =>
          rw [hfirst] at hrest
          rw [errorAlone_cons_error hbuffer hfirst,
            split_append_error _ _ hfirst]
          simp only [feedAll, feed_error hfirst, feedAll_invalid hrest,
            List.append_nil]
          exact eq_comm
      | none =>
          rw [hfirst] at hrest
          rw [errorAlone_cons_ok hfirst, split_append _ _ hfirst]
          simp only [feedAll, feed_ok hfirst, List.append_cancel_left_eq]
          exact ih hrest

end Framing
