import ReliableDelivery.Support.PosixPath

/-!
# Static files

`serveStatic` of `server.ts`.  The path of a request is decoded and normalised, and
what is left is looked up below `PUBLIC_DIR`.  The directory of the program is
`dirname`, an absolute path, and `stat` tells of a path whether it is a regular file,
or fails.
-/

namespace ReliableDelivery

open Ecmascript

/-- What `serveStatic` answers with. -/
inductive StaticResponse where
  | json (statusCode : ℕ) (reason : Text)
  | file (filePath contentType : Text)
  deriving DecidableEq

/-- The characters of `[/\\]`. -/
def isSeparator (c : UInt16) : Bool :=
  c = PosixPath.slash || c = 0x5C

/-- The text split at the runs of separators. -/
def splitSeparators : Text → List Text
  | [] => [[]]
  | c :: text =>
      if isSeparator c then
        if text.head?.any isSeparator then splitSeparators text
        else [] :: splitSeparators text
      else (splitSeparators text).modifyHead (c :: ·)

def contentType (filePath : Text) : Text :=
  let ext := PosixPath.extname filePath
  if ext = ascii ".html" then ascii "text/html; charset=utf-8"
  else if ext = ascii ".js" then ascii "text/javascript; charset=utf-8"
  else if ext = ascii ".css" then ascii "text/css; charset=utf-8"
  else if ext = ascii ".json" then ascii "application/json; charset=utf-8"
  else ascii "application/octet-stream"

/-- `PUBLIC_DIR`. -/
def publicDir (cwd dirname : Text) : Text :=
  PosixPath.resolve cwd [dirname, ascii "..", ascii "public"]

def serveStatic (cwd dirname : Text) (stat : Text → Option Bool)
    (pathname : Text) : Except JsError StaticResponse := do
  let pathname := if pathname = ascii "/" then ascii "/index.html" else pathname
  let decoded ← decodeURIComponent pathname
  let relativePath := (PosixPath.normalize decoded).dropWhile isSeparator
  if ascii ".." ∈ splitSeparators relativePath then
    return .json 403 (ascii "forbidden")
  let filePath := PosixPath.resolve cwd
    [PosixPath.join [publicDir cwd dirname, relativePath]]
  if !(publicDir cwd dirname).isPrefixOf filePath then
    return .json 403 (ascii "forbidden")
  match stat filePath with
  | some true => return .file filePath (contentType filePath)
  | _ => return .json 404 (ascii "not found")

/-! ## Segments and pieces -/

/-- A segment without a backslash is one of the pieces. -/
theorem splitSeparators_spec (text : Text) :
    ∃ first rest piece pieces, text.splitOn PosixPath.slash = first :: rest ∧
      splitSeparators text = piece :: pieces ∧
      (0x5C ∉ first → piece = first) ∧
      (text.head?.any isSeparator = true → piece = []) ∧
      ∀ s ∈ rest, s ≠ [] → 0x5C ∉ s → s ∈ pieces := by
  induction text with
  | nil => exact ⟨[], [], [], [], rfl, rfl, fun _ => rfl, nofun, nofun⟩
  | cons c text ih =>
      obtain ⟨first, rest, piece, pieces, hsplit, hpieces, hfirst, hhead, hrest⟩ := ih
      rw [List.splitOn_cons_eq_if_modifyHead, splitSeparators, hsplit, hpieces]
      have hmem : ∀ s ∈ first :: rest, s ≠ [] → 0x5C ∉ s →
          s ∈ piece :: pieces := by
        intro s hs hne hbackslash
        rcases List.mem_cons.mp hs with rfl | hs
        · rw [hfirst hbackslash]
          exact List.mem_cons_self
        · exact List.mem_cons_of_mem _ (hrest s hs hne hbackslash)
      by_cases hslash : c = PosixPath.slash
      · subst hslash
        rw [if_pos (beq_self_eq_true _), if_pos (by decide)]
        split
        · next hrun =>
            refine ⟨[], first :: rest, piece, pieces, rfl, rfl, ?_, ?_, ?_⟩
            · exact fun _ => hhead hrun
            · exact fun _ => hhead hrun
            · intro s hs hne hbackslash
              have hs := hmem s hs hne hbackslash
              rw [hhead hrun, List.mem_cons] at hs
              exact hs.resolve_left hne
        · exact ⟨[], first :: rest, [], piece :: pieces, rfl, rfl, fun _ => rfl,
            fun _ => rfl, hmem⟩
      · rw [if_neg (by simpa using hslash)]
        by_cases hseparator : isSeparator c = true
        · have hbackslash : c = 0x5C := by
            simpa [isSeparator, hslash] using hseparator
          have hfirst' : 0x5C ∉ c :: first → piece = c :: first :=
            fun hnot => absurd (hbackslash ▸ List.mem_cons_self) hnot
          rw [if_pos hseparator]
          split
          · next hrun =>
              exact ⟨c :: first, rest, piece, pieces, rfl, rfl, hfirst',
                fun _ => hhead hrun, hrest⟩
          · refine ⟨c :: first, rest, [], piece :: pieces, rfl, rfl, ?_, ?_, ?_⟩
            · exact fun hnot => absurd (hbackslash ▸ List.mem_cons_self) hnot
            · exact fun _ => rfl
            · intro s hs hne hbackslash
              exact List.mem_cons_of_mem _ (hrest s hs hne hbackslash)
        · rw [if_neg hseparator]
          refine ⟨c :: first, rest, c :: piece, pieces, rfl, rfl, ?_, ?_, hrest⟩
          · intro hbackslash
            rw [List.mem_cons, not_or] at hbackslash
            rw [hfirst hbackslash.2]
          · intro hrun
            exact absurd (by simpa using hrun) hseparator

/-- If no piece is `..`, no segment is. -/
theorem parent_notMem_of_pieces {text : Text}
    (h : ascii ".." ∉ splitSeparators text) :
    PosixPath.parent ∉ text.splitOn PosixPath.slash := by
  obtain ⟨first, rest, piece, pieces, hsplit, hpieces, hfirst, -, hrest⟩ :=
    splitSeparators_spec text
  have hbackslash : (0x5C : UInt16) ∉ PosixPath.parent := by decide
  intro hmem
  rw [hsplit, List.mem_cons] at hmem
  apply h
  rw [hpieces, List.mem_cons]
  rcases hmem with hmem | hmem
  · exact .inl ((hfirst (hmem ▸ hbackslash)).trans hmem.symm).symm
  · exact .inr (hrest _ hmem (by decide) hbackslash)

/-! ## Below the public directory -/

/-- `PUBLIC_DIR` is an absolute path without dots. -/
theorem exists_publicDir {cwd dirname : Text}
    (h : PosixPath.isAbsolute dirname = true) :
    ∃ names, names ≠ [] ∧ (∀ s ∈ names, PosixPath.IsName s) ∧
      publicDir cwd dirname = PosixPath.absolutePath names := by
  have hpublic : PosixPath.IsName (ascii "public") := by
    constructor
    · decide
    · decide
    · decide
    · decide
  refine ⟨_, ?_, ?_, PosixPath.resolve_relative cwd h ?_ ?_⟩
  · have hlast : (ascii "public").splitOn PosixPath.slash = [ascii "public"] := by
      decide
    rw [hlast, PosixPath.reduce, List.foldl_append, List.foldl_cons, List.foldl_nil,
      PosixPath.pushSegment_of_isName hpublic]
    simp
  · apply PosixPath.isName_of_mem_reduce
    intro s hs
    simp only [List.mem_append] at hs
    rcases hs with (hs | hs) | hs
    · exact PosixPath.splitOn_slash_notMem _ s hs
    · exact PosixPath.splitOn_slash_notMem _ s hs
    · exact PosixPath.splitOn_slash_notMem _ s hs
  · decide
  · decide

section Serve

variable {cwd dirname : Text} {stat : Text → Option Bool}
  {pathname filePath contentType : Text}

/-- What has been checked of a file that is opened. -/
theorem serveStatic_file (h : serveStatic cwd dirname stat pathname =
      .ok (.file filePath contentType)) :
    ∃ relativePath, ascii ".." ∉ splitSeparators relativePath ∧
      filePath = PosixPath.resolve cwd
        [PosixPath.join [publicDir cwd dirname, relativePath]] ∧
      stat filePath = some true := by
  rw [serveStatic] at h
  cases hdecoded : decodeURIComponent
      (if pathname = ascii "/" then ascii "/index.html" else pathname) with
  | error error =>
      rw [hdecoded] at h
      cases h
  | ok decoded =>
      rw [hdecoded] at h
      have hbind : ∀ f : Text → Except JsError StaticResponse,
          (Except.ok decoded >>= f) = f decoded := fun _ => rfl
      rw [hbind] at h
      dsimp only at h
      split at h
      · cases h
      · next hpieces =>
          split at h
          · cases h
          · refine ⟨_, hpieces, ?_⟩
            generalize PosixPath.resolve cwd _ = opened at h ⊢
            cases hstat : stat opened with
            | none =>
                rw [hstat] at h
                cases h
            | some regular =>
                rw [hstat] at h
                cases regular with
                | true =>
                    cases h
                    exact ⟨rfl, hstat⟩
                | false => cases h

/-- Every file that is opened is below `PUBLIC_DIR`. -/
theorem file_below_publicDir (hdirname : PosixPath.isAbsolute dirname = true)
    (hpublic : stat (publicDir cwd dirname) ≠ some true)
    (hopened : serveStatic cwd dirname stat pathname =
      .ok (.file filePath contentType)) :
    ∃ segments, segments ≠ [] ∧ (∀ s ∈ segments, PosixPath.IsName s) ∧
      filePath = publicDir cwd dirname ++
        PosixPath.slash :: PosixPath.joinSegments segments := by
  obtain ⟨names, hne, hnames, hdir⟩ := @exists_publicDir cwd dirname hdirname
  obtain ⟨relativePath, hpieces, hfilePath, hstat⟩ := serveStatic_file hopened
  have hparent := parent_notMem_of_pieces hpieces
  have hsegments : ∀ s ∈ (relativePath.splitOn PosixPath.slash).filter
      (fun s => s ≠ [] ∧ s ≠ [PosixPath.dot]), PosixPath.IsName s := by
    intro s hs
    obtain ⟨hmem, hkept⟩ := List.mem_filter.mp hs
    rw [decide_eq_true_eq] at hkept
    refine ⟨hkept.1, hkept.2, ?_, PosixPath.splitOn_slash_notMem _ s hmem⟩
    rintro rfl
    exact hparent hmem
  rw [hdir, PosixPath.resolve_join cwd hnames hne hparent] at hfilePath
  rw [hdir] at hpublic ⊢
  refine ⟨_, ?_, hsegments, ?_⟩
  · intro hnil
    rw [hnil, List.append_nil] at hfilePath
    exact hpublic (hfilePath ▸ hstat)
  · rw [hfilePath, PosixPath.absolutePath_append hne]
    intro hnil
    rw [hnil, List.append_nil] at hfilePath
    exact hpublic (hfilePath ▸ hstat)

/-- The program is in `/srv/dist`, and there is one regular file. -/
def sampleServe (pathname : String) : Except JsError StaticResponse :=
  serveStatic (ascii "/") (ascii "/srv/dist")
    (fun path => some (path = ascii "/srv/public/a/b.js")) (ascii pathname)

theorem file_below_publicDir_sampleServe :
    ∃ segments, segments ≠ [] ∧ (∀ s ∈ segments, PosixPath.IsName s) ∧
      ascii "/srv/public/a/b.js" = publicDir (ascii "/") (ascii "/srv/dist") ++
        PosixPath.slash :: PosixPath.joinSegments segments := by
  have hopened : sampleServe "//x/%2e%2E/a%2f.//b.js" = .ok (.file
      (ascii "/srv/public/a/b.js") (ascii "text/javascript; charset=utf-8")) := by
    decide +kernel
  exact file_below_publicDir (by decide +kernel) (by decide +kernel) hopened

/-- When the leading separators are removed, `..` comes to light. -/
example : sampleServe "/%5C..%2fdist" =
    .ok (.json 403 (ascii "forbidden")) := by
  decide +kernel

end Serve

end ReliableDelivery
