import ReliableDelivery.Support.Ecmascript

/-!
# Paths of POSIX systems

The functions `normalize`, `join` and `resolve` of Node's `path` on a POSIX system.
A path is taken apart at its slashes.  Empty segments and `.` are dropped, and `..`
takes the segment before it away; what it does at the front depends on whether the
path may lead above the place where it starts.
-/

namespace PosixPath

open Ecmascript

def slash : UInt16 := 0x2F

def dot : UInt16 := 0x2E

/-- The segment `..`. -/
def parent : Text := [dot, dot]

/-- One segment of `normalizeString`; the segments so far have the last one first. -/
def pushSegment (allowAboveRoot : Bool) (segments : List Text) (segment : Text) :
    List Text :=
  if segment = [] ∨ segment = [dot] then segments
  else if segment = parent then
    if segments = [] ∨ segments.head? = some parent then
      if allowAboveRoot then parent :: segments else segments
    else segments.tail
  else segment :: segments

/-- The segments that are left of those of a path. -/
def reduce (allowAboveRoot : Bool) (segments : List Text) : List Text :=
  (segments.foldl (pushSegment allowAboveRoot) []).reverse

def joinSegments (segments : List Text) : Text :=
  [slash].intercalate segments

def normalizeString (path : Text) (allowAboveRoot : Bool) : Text :=
  joinSegments (reduce allowAboveRoot (path.splitOn slash))

def isAbsolute (path : Text) : Bool :=
  path.head? = some slash

/-- `path.normalize`. -/
def normalize (path : Text) : Text :=
  if path = [] then [dot]
  else
    let trailingSeparator := path.getLast? = some slash
    let normal := normalizeString path (!isAbsolute path)
    if normal = [] then
      if isAbsolute path then [slash]
      else if trailingSeparator then [dot, slash]
      else [dot]
    else
      let normal := if trailingSeparator then normal ++ [slash] else normal
      if isAbsolute path then slash :: normal else normal

/-- `path.join`. -/
def join (paths : List Text) : Text :=
  let joined := joinSegments (paths.filter (· ≠ []))
  if joined = [] then [dot] else normalize joined

/-- The arguments from the last one on, up to the first that is absolute, with a slash
after each. -/
def resolvedPath : List Text → Text → Text
  | [], resolved => resolved
  | path :: paths, resolved =>
      if path = [] then resolvedPath paths resolved
      else if isAbsolute path then path ++ slash :: resolved
      else resolvedPath paths (path ++ slash :: resolved)

/-- `path.resolve`, in the directory `cwd`. -/
def resolve (cwd : Text) (paths : List Text) : Text :=
  let resolved := resolvedPath (paths.reverse ++ [cwd]) []
  let normal := normalizeString resolved (!isAbsolute resolved)
  if isAbsolute resolved then slash :: normal
  else if normal = [] then [dot]
  else normal

/-- `path.extname`: the last segment from its last dot on, if something other than a dot
comes before. -/
def extname (path : Text) : Text :=
  let base := ((path.splitOn slash).filter (· ≠ [])).getLast?.getD []
  let parts := base.splitOn dot
  if base = parent ∨ parts.length ≤ 1 ∨ parts.length = 2 ∧ parts.head? = some [] then
    []
  else dot :: parts.getLast?.getD []

/-! ## Names -/

/-- A segment that names a file or a directory. -/
structure IsName (segment : Text) : Prop where
  ne_nil : segment ≠ []
  ne_dot : segment ≠ [dot]
  ne_parent : segment ≠ parent
  slash_notMem : slash ∉ segment

/-- The absolute path with the given names. -/
def absolutePath (names : List Text) : Text :=
  slash :: joinSegments names

section Reduce

variable {segments names : List Text}

theorem splitOn_slash_notMem (path : Text) :
    ∀ segment ∈ path.splitOn slash, slash ∉ segment := by
  induction path with
  | nil => simp
  | cons c path ih =>
      rw [List.splitOn_cons_eq_if_modifyHead]
      split
      · intro segment hsegment
        rcases List.mem_cons.mp hsegment with rfl | hsegment
        · simp
        · exact ih segment hsegment
      · next hc =>
          obtain ⟨first, rest, hsplit⟩ :=
            List.exists_cons_of_ne_nil (List.splitOn_ne_nil slash path)
          rw [hsplit] at ih ⊢
          intro segment hsegment
          rcases List.mem_cons.mp hsegment with rfl | hsegment
          · rw [List.mem_cons, not_or]
            refine ⟨fun heq => hc ?_, ih first List.mem_cons_self⟩
            rw [← heq, beq_self_eq_true]
          · exact ih segment (List.mem_cons_of_mem _ hsegment)

theorem pushSegment_of_isName {allowAboveRoot : Bool} {segment : Text}
    (h : IsName segment) :
    pushSegment allowAboveRoot segments segment = segment :: segments := by
  rw [pushSegment, if_neg (not_or.mpr ⟨h.ne_nil, h.ne_dot⟩), if_neg h.ne_parent]

/-- Below the root only names are kept. -/
theorem isName_of_mem_foldl (hsegments : ∀ s ∈ segments, slash ∉ s)
    (hnames : ∀ s ∈ names, IsName s) :
    ∀ s ∈ segments.foldl (pushSegment false) names, IsName s := by
  induction segments generalizing names with
  | nil => exact hnames
  | cons segment segments ih =>
      rw [List.foldl_cons]
      apply ih fun s hs => hsegments s (List.mem_cons_of_mem _ hs)
      intro s hs
      rw [pushSegment] at hs
      split at hs
      · exact hnames s hs
      · next hkept =>
          rw [not_or] at hkept
          split at hs
          · split at hs
            · exact hnames s (by simpa using hs)
            · exact hnames s (List.mem_of_mem_tail hs)
          · next hother =>
              rcases List.mem_cons.mp hs with rfl | hs
              · exact ⟨hkept.1, hkept.2, hother,
                  hsegments s List.mem_cons_self⟩
              · exact hnames s hs

theorem isName_of_mem_reduce (h : ∀ s ∈ segments, slash ∉ s) :
    ∀ s ∈ reduce false segments, IsName s := by
  intro s hs
  rw [reduce, List.mem_reverse] at hs
  exact isName_of_mem_foldl h (by simp) s hs

/-- Without `..` nothing is taken away. -/
theorem foldl_pushSegment (h : parent ∉ segments) :
    segments.foldl (pushSegment false) names =
      (segments.filter fun s => s ≠ [] ∧ s ≠ [dot]).reverse ++ names := by
  induction segments generalizing names with
  | nil => rfl
  | cons segment segments ih =>
      rw [List.mem_cons, not_or] at h
      rw [List.foldl_cons, ih h.2, pushSegment]
      split
      · next hdropped =>
          rw [List.filter_cons_of_neg]
          rcases hdropped with rfl | rfl
          · simp
          · simp
      · next hkept =>
          rw [not_or] at hkept
          rw [if_neg (Ne.symm h.1), List.filter_cons_of_pos (by simpa using hkept)]
          simp

theorem foldl_names (h : ∀ s ∈ names, IsName s) (before : List Text) :
    names.foldl (pushSegment false) before = names.reverse ++ before := by
  induction names generalizing before with
  | nil => rfl
  | cons name names ih =>
      rw [List.foldl_cons, pushSegment_of_isName (h name List.mem_cons_self),
        ih fun s hs => h s (List.mem_cons_of_mem _ hs)]
      simp

/-- Segments without `..` go on from where the names lead. -/
theorem reduce_append (hnames : ∀ s ∈ names, IsName s) (h : parent ∉ segments) :
    reduce false (names ++ segments) =
      names ++ segments.filter fun s => s ≠ [] ∧ s ≠ [dot] := by
  rw [reduce, List.foldl_append, foldl_names hnames, foldl_pushSegment h]
  simp

theorem reduce_nil_cons (allowAboveRoot : Bool) :
    reduce allowAboveRoot ([] :: segments) = reduce allowAboveRoot segments := by
  rw [reduce, List.foldl_cons, pushSegment, if_pos (.inl rfl), reduce]

theorem reduce_concat_nil (allowAboveRoot : Bool) :
    reduce allowAboveRoot (segments ++ [[]]) = reduce allowAboveRoot segments := by
  rw [reduce, List.foldl_append, List.foldl_cons, List.foldl_nil, pushSegment,
    if_pos (.inl rfl), reduce]

end Reduce

/-! ## Absolute paths -/

section Absolute

variable {names : List Text} {path : Text}

theorem isAbsolute_append (h : isAbsolute path = true) (after : Text) :
    isAbsolute (path ++ after) = true := by
  rw [isAbsolute, decide_eq_true_eq] at h ⊢
  rw [List.head?_append, h, Option.some_or]

theorem isAbsolute_absolutePath : isAbsolute (absolutePath names) = true := by
  simp [isAbsolute, absolutePath]

theorem joinSegments_ne_nil (hnames : ∀ s ∈ names, IsName s) (h : names ≠ []) :
    joinSegments names ≠ [] := by
  obtain ⟨name, rest, rfl⟩ := List.exists_cons_of_ne_nil h
  have hname := (hnames name List.mem_cons_self).ne_nil
  cases rest with
  | nil => simpa [joinSegments] using hname
  | cons next rest =>
      rw [joinSegments, List.intercalate_cons_cons]
      simp

/-- The names of an absolute path come after an empty segment. -/
theorem splitOn_absolutePath (hnames : ∀ s ∈ names, IsName s) (h : names ≠ []) :
    (absolutePath names).splitOn slash = [] :: names := by
  have hsplit : (joinSegments names).splitOn slash = names :=
    List.splitOn_intercalate slash (fun s hs => (hnames s hs).slash_notMem) h
  rw [absolutePath, ← List.nil_append (slash :: _),
    List.splitOn_append_cons_self_of_not_mem List.not_mem_nil, hsplit]

theorem reduce_names (hnames : ∀ s ∈ names, IsName s) :
    reduce false names = names := by
  have happend := @reduce_append [] names hnames List.not_mem_nil
  simpa using happend

theorem reduce_absolutePath (hnames : ∀ s ∈ names, IsName s) (h : names ≠ []) :
    reduce false ((absolutePath names).splitOn slash) = names := by
  rw [splitOn_absolutePath hnames h, reduce_nil_cons, reduce_names hnames]

/-- A slash at the end of a path is lost. -/
theorem reduce_concat_slash (path : Text) :
    reduce false ((path ++ [slash]).splitOn slash) =
      reduce false (path.splitOn slash) := by
  rw [List.splitOn_append_cons_self, List.splitOn_nil, reduce_concat_nil]

/-- One absolute argument. -/
theorem resolve_absolute (cwd : Text) (h : isAbsolute path = true) :
    resolve cwd [path] =
      absolutePath (reduce false (path.splitOn slash)) := by
  have hne : path ≠ [] := by
    rintro rfl
    cases h
  have hresolved : resolvedPath ([path].reverse ++ [cwd]) [] = path ++ [slash] := by
    rw [List.reverse_singleton, List.singleton_append, resolvedPath, if_neg hne,
      if_pos h]
  have habsolute := isAbsolute_append h [slash]
  rw [resolve, hresolved]
  rw [if_pos habsolute, habsolute, Bool.not_true, normalizeString,
    reduce_concat_slash, absolutePath]

/-- An absolute directory, and relative arguments. -/
theorem resolve_relative (cwd : Text) {first second : Text}
    (h : isAbsolute path = true) (hfirst : first ≠ [] ∧ isAbsolute first = false)
    (hsecond : second ≠ [] ∧ isAbsolute second = false) :
    resolve cwd [path, first, second] = absolutePath (reduce false
      (path.splitOn slash ++ first.splitOn slash ++ second.splitOn slash)) := by
  have hne : path ≠ [] := by
    rintro rfl
    cases h
  have hresolved : resolvedPath ([path, first, second].reverse ++ [cwd]) [] =
      path ++ slash :: (first ++ slash :: (second ++ [slash])) := by
    simp only [List.reverse_cons, List.reverse_nil, List.nil_append,
      List.cons_append, resolvedPath]
    rw [if_neg hsecond.1, hsecond.2, if_neg Bool.false_ne_true, if_neg hfirst.1,
      hfirst.2, if_neg Bool.false_ne_true, if_neg hne, if_pos h]
  have habsolute := isAbsolute_append h
    (slash :: (first ++ slash :: (second ++ [slash])))
  have hsegments : (path ++ slash :: (first ++ slash :: (second ++ [slash]))).splitOn
      slash = path.splitOn slash ++ first.splitOn slash ++ second.splitOn slash ++
        [[]] := by
    rw [List.splitOn_append_cons_self, List.splitOn_append_cons_self,
      List.splitOn_append_cons_self, List.splitOn_nil]
    simp
  rw [resolve, hresolved]
  rw [if_pos habsolute, habsolute, Bool.not_true, normalizeString, hsegments,
    reduce_concat_nil, absolutePath]

/-- What is left of an absolute path with a name is that path again, perhaps with a
slash at the end. -/
theorem normalize_absolute (h : isAbsolute path = true)
    (hnames : reduce false (path.splitOn slash) ≠ []) :
    ∃ after, (after = [] ∨ after = [slash]) ∧
      normalize path =
        absolutePath (reduce false (path.splitOn slash)) ++ after := by
  have hne : path ≠ [] := by
    rintro rfl
    cases h
  have hnormal : normalizeString path (!isAbsolute path) =
      joinSegments (reduce false (path.splitOn slash)) := by
    rw [h, Bool.not_true, normalizeString]
  have hkept := joinSegments_ne_nil
    (isName_of_mem_reduce (splitOn_slash_notMem path)) hnames
  rw [normalize, if_neg hne]
  dsimp only
  rw [hnormal, if_neg hkept, if_pos h]
  split
  · exact ⟨[slash], .inr rfl, rfl⟩
  · exact ⟨[], .inl rfl, (List.append_nil _).symm⟩

/-- A path under an absolute directory.  Without `..` it does not leave the
directory. -/
theorem resolve_join (cwd : Text) (hnames : ∀ s ∈ names, IsName s) (h : names ≠ [])
    {relative : Text} (hrelative : parent ∉ relative.splitOn slash) :
    resolve cwd [join [absolutePath names, relative]] =
      absolutePath (names ++
        (relative.splitOn slash).filter fun s => s ≠ [] ∧ s ≠ [dot]) := by
  set joined := joinSegments ([absolutePath names, relative].filter (· ≠ []))
    with hjoined
  have hsegments : reduce false (joined.splitOn slash) =
      names ++ (relative.splitOn slash).filter fun s => s ≠ [] ∧ s ≠ [dot] := by
    by_cases hempty : relative = []
    · subst hempty
      have heq : joined = absolutePath names := by
        simp [hjoined, joinSegments, absolutePath]
      rw [heq, reduce_absolutePath hnames h]
      simp
    · have heq : joined = absolutePath names ++ slash :: relative := by
        simp [hjoined, joinSegments, absolutePath, hempty]
      rw [heq, List.splitOn_append_cons_self, splitOn_absolutePath hnames h,
        List.cons_append, reduce_nil_cons, reduce_append hnames hrelative]
  have habsolute : isAbsolute joined = true := by
    by_cases hempty : relative = []
    · simp [hjoined, joinSegments, absolutePath, isAbsolute, hempty]
    · simp [hjoined, joinSegments, absolutePath, isAbsolute, hempty]
  have hne : joined ≠ [] := by
    intro hnil
    rw [hnil] at habsolute
    cases habsolute
  have hkept : reduce false (joined.splitOn slash) ≠ [] := by
    rw [hsegments]
    simp [h]
  obtain ⟨after, hafter, hnormal⟩ := normalize_absolute habsolute hkept
  have hjoin : join [absolutePath names, relative] = normalize joined := by
    rw [join, ← hjoined, if_neg hne]
  rw [hjoin, hnormal, resolve_absolute cwd
    (isAbsolute_append isAbsolute_absolutePath after), ← hsegments]
  congr 1
  have hkeptNames := isName_of_mem_reduce (splitOn_slash_notMem joined)
  rcases hafter with rfl | rfl
  · rw [List.append_nil, reduce_absolutePath hkeptNames hkept]
  · rw [reduce_concat_slash, reduce_absolutePath hkeptNames hkept]

theorem joinSegments_append {after : List Text} (h : names ≠ []) (hafter : after ≠ []) :
    joinSegments (names ++ after) =
      joinSegments names ++ slash :: joinSegments after := by
  induction names with
  | nil => exact absurd rfl h
  | cons name names ih =>
      cases names with
      | nil =>
          rw [List.singleton_append, joinSegments,
            List.intercalate_cons_of_ne_nil hafter]
          simp [joinSegments]
      | cons next names =>
          have hrest := ih (List.cons_ne_nil _ _)
          simp only [joinSegments] at hrest ⊢
          rw [List.cons_append, List.intercalate_cons_of_ne_nil (by simp), hrest,
            List.intercalate_cons_cons]
          simp

theorem absolutePath_append {after : List Text} (h : names ≠ []) (hafter : after ≠ []) :
    absolutePath (names ++ after) =
      absolutePath names ++ slash :: joinSegments after := by
  rw [absolutePath, joinSegments_append h hafter]
  rfl

end Absolute

end PosixPath
