import Mathlib.Data.List.Basic

/-!
# Where `create_job` writes uploaded files

`create_job` makes `./jobd/jobs/job_<hex>` and, unless the upload is one archive, opens
`os.path.join(job_dir, file.filename)` for writing for every uploaded file.  The filename
comes from the request.  `posixpath.join` returns an absolute second argument as it is,
and the system resolves `..` components, so a filename such as `/etc/passwd` or
`../escape.py` is written outside the job directory.  A relative filename without a `..`
component stays inside it.

Paths are Python strings, as lists of characters; `posixpath.join` and
`posixpath.normpath` follow CPython's `posixpath` module.  "Inside" is the claim's notion:
the normalised path starts with the normalised directory and a separator.

## Main definitions

* `join`, `normpath` — `posixpath.join` of two paths and `posixpath.normpath`.
* `Inside` — a path lies inside a directory after normalisation.
* `jobDir`, `createJob` — the job directory, and what `create_job` does with the files.

## Main results

* `upload_escapes_job_dir` — an absolute filename and one starting with `..` are written
  outside the job directory, whatever its uuid.
* `relative_upload_inside` — every loose file whose name is relative and has no `..`
  component is written inside the job directory.
-/

namespace Sandrun.Routes

/-! ### `posixpath` -/

/-- `posixpath.join(a, b)`: an absolute `b` replaces `a`; otherwise `b` is appended after a
separator, unless `a` is empty or already ends with one. -/
def join (a b : List Char) : List Char :=
  if b.head? = some '/' then b
  else if a = [] ∨ a.getLast? = some '/' then a ++ b
  else a ++ '/' :: b

/-- The leading slashes `normpath` keeps: exactly two are kept, three or more become one. -/
def initialSlashes (path : List Char) : Nat :=
  if ['/'].isPrefixOf path then
    if ['/', '/'].isPrefixOf path && !(['/', '/', '/'].isPrefixOf path) then 2 else 1
  else 0

/-- One turn of the loop of `normpath` over the components: empty and `.` components are
dropped, and `..` removes the previous component when there is one to remove. -/
def normComp (initialSlashes : Nat) (newComps : List (List Char)) (comp : List Char) :
    List (List Char) :=
  if comp = [] ∨ comp = ['.'] then newComps
  else if comp ≠ ['.', '.'] ∨ (initialSlashes = 0 ∧ newComps = []) ∨
      newComps.getLast? = some ['.', '.'] then newComps ++ [comp]
  else newComps.dropLast

/-- `posixpath.normpath(path)`. -/
def normpath (path : List Char) : List Char :=
  if path = [] then ['.']
  else
    let comps := (path.splitOn '/').foldl (normComp (initialSlashes path)) []
    let p := List.replicate (initialSlashes path) '/' ++ ['/'].intercalate comps
    if p = [] then ['.'] else p

/-- `path` lies inside `dir` after normalisation: it starts with the directory and a
separator. -/
def Inside (dir path : List Char) : Prop := List.IsPrefix (normpath dir ++ ['/']) (normpath path)

instance (dir path : List Char) : Decidable (Inside dir path) :=
  inferInstanceAs (Decidable (List.IsPrefix _ _))

/-! #### Components -/

section Components

/-- A component `normpath` keeps. -/
def isPart (comp : List Char) : Bool := comp ≠ [] ∧ comp ≠ ['.']

/-- Splitting at a separator splits each side. -/
theorem splitOn_append_sep (xs ys : List Char) :
    (xs ++ '/' :: ys).splitOn '/' = xs.splitOn '/' ++ ys.splitOn '/' := by
  induction xs with
  | nil => simp [List.splitOn]
  | cons x xs ih =>
    simp only [List.splitOn] at ih ⊢
    rw [List.cons_append, List.splitOnP_cons, List.splitOnP_cons, ih]
    split_ifs
    · rfl
    · cases h : xs.splitOnP (· == '/') with
      | nil => exact absurd h (List.splitOnP_ne_nil _ _)
      | cons c cs => rfl

/-- Away from `..`, the loop keeps the components that are not empty or `.`. -/
theorem foldl_normComp (s : Nat) {comps : List (List Char)} (h : ['.', '.'] ∉ comps)
    (acc : List (List Char)) : comps.foldl (normComp s) acc = acc ++ comps.filter isPart := by
  induction comps generalizing acc with
  | nil => simp
  | cons c cs ih =>
    rw [List.mem_cons, not_or] at h
    have hdd : c ≠ ['.', '.'] := fun e => h.1 e.symm
    rw [List.foldl_cons, ih h.2, List.filter_cons]
    by_cases hc : c = [] ∨ c = ['.']
    · have hp : isPart c = false := by simp only [isPart, decide_eq_false_iff_not]; tauto
      simp [normComp, hc, hp]
    · have hp : isPart c = true := by simp only [isPart, decide_eq_true_eq]; tauto
      simp [normComp, hc, hdd, hp]

theorem intercalate_append {A B : List (List Char)} (hA : A ≠ []) (hB : B ≠ []) :
    ['/'].intercalate (A ++ B) = ['/'].intercalate A ++ '/' :: ['/'].intercalate B := by
  induction A with
  | nil => exact absurd rfl hA
  | cons a A ih =>
    cases A with
    | nil =>
      obtain ⟨b, B, rfl⟩ := List.exists_cons_of_ne_nil hB
      simp [List.intercalate]
    | cons a' A => simp [List.intercalate, List.intersperse_cons_cons] at ih ⊢; exact ih

end Components

/-! ### `create_job` -/

/-- `./jobd/jobs/job_<hex>`, the directory made from `uuid.uuid4().hex`. -/
def jobDir (hex : List Char) : List Char := "./jobd/jobs/job_".toList ++ hex

/-- `filename.endswith((".tar", ".gz", ".zip"))`. -/
def isAggregate (filename : List Char) : Bool :=
  ".tar".toList.isSuffixOf filename || ".gz".toList.isSuffixOf filename ||
    ".zip".toList.isSuffixOf filename

/-- What `create_job` does with the uploaded files. -/
inductive Upload
  /-- `HTTPException(400, "No files uploaded.")`. -/
  | noFiles
  /-- One archive, extracted into the job directory. -/
  | extract
  /-- The paths opened for writing, one per file, in order. -/
  | loose (paths : List (List Char))
  deriving DecidableEq, Repr

/-- The upload part of `create_job`, given the uploaded filenames; `hex` is the
`uuid.uuid4().hex` that names the job directory. -/
def createJob (hex : List Char) (filenames : List (List Char)) : Upload :=
  if filenames.length = 0 then .noFiles
  else if filenames.length = 1 ∧ filenames.any isAggregate then .extract
  else .loose (filenames.map (join (jobDir hex)))

section JobDir

variable {hex : List Char}

theorem splitOn_jobDir (hhex : '/' ∉ hex) :
    (jobDir hex).splitOn '/' = [['.'], "jobd".toList, "jobs".toList, "job_".toList ++ hex] := by
  have hsingle : hex.splitOn '/' = [hex] :=
    List.splitOnP_eq_single _ _ fun x hx h => hhex (by simpa using (beq_iff_eq.1 h) ▸ hx)
  simp [jobDir, List.splitOn, List.splitOnP_cons] at hsingle ⊢
  simp [hsingle]

theorem initialSlashes_jobDir (l : List Char) : initialSlashes (jobDir hex ++ l) = 0 := by
  simp [initialSlashes, jobDir]

/-- The components of the job directory. -/
theorem foldl_jobDir (hhex : '/' ∉ hex) :
    ((jobDir hex).splitOn '/').foldl (normComp 0) [] =
      ["jobd".toList, "jobs".toList, "job_".toList ++ hex] := by
  rw [splitOn_jobDir hhex]
  simp [normComp]

theorem normpath_jobDir (hhex : '/' ∉ hex) :
    normpath (jobDir hex) = "jobd/jobs/job_".toList ++ hex := by
  have h0 : initialSlashes (jobDir hex) = 0 := by simpa using @initialSlashes_jobDir hex []
  unfold normpath
  rw [if_neg (by simp [jobDir]), h0, foldl_jobDir hhex]
  simp [List.intercalate]

/-- A relative name is joined to the job directory after a separator. -/
theorem join_jobDir (hhex : '/' ∉ hex) {f : List Char} (hf : f.head? ≠ some '/') :
    join (jobDir hex) f = jobDir hex ++ '/' :: f := by
  -- the directory ends with the last character of the uuid, or with `_`
  have hlast : (jobDir hex).getLast? ≠ some '/' := by
    rcases List.eq_nil_or_concat hex with rfl | ⟨L, c, rfl⟩
    · simp [jobDir]
    · rw [List.concat_eq_append] at hhex ⊢
      rw [jobDir, ← List.append_assoc, List.getLast?_concat, ne_eq, Option.some.injEq]
      rintro rfl
      exact hhex (List.mem_append_right L (List.mem_singleton_self _))
  unfold join
  rw [if_neg hf, if_neg (not_or.2 ⟨by simp [jobDir], hlast⟩)]

/-- A relative name without `..` normalises to the job directory followed by the name's
own components. -/
theorem normpath_jobDir_append (hhex : '/' ∉ hex) {f : List Char}
    (hdd : ['.', '.'] ∉ f.splitOn '/') :
    normpath (jobDir hex ++ '/' :: f) =
      ['/'].intercalate (["jobd".toList, "jobs".toList, "job_".toList ++ hex] ++
        (f.splitOn '/').filter isPart) := by
  unfold normpath
  rw [if_neg (by simp [jobDir]), initialSlashes_jobDir, splitOn_append_sep, List.foldl_append,
    foldl_jobDir hhex, foldl_normComp 0 hdd]
  simp [List.intercalate]

end JobDir

/-- The paths of a loose upload are the filenames joined to the job directory. -/
theorem createJob_loose {hex : List Char} {filenames paths : List (List Char)}
    (h : createJob hex filenames = .loose paths) : paths = filenames.map (join (jobDir hex)) := by
  unfold createJob at h
  split_ifs at h
  cases h
  rfl

/-- **Relative names stay inside.**  For every `uuid4().hex` and every upload written as
loose files whose names are relative and have no `..` component, every path `create_job`
opens for writing lies inside the job directory after normalisation, or normalises to the
directory itself, which `open` cannot write. -/
theorem relative_upload_inside {hex : List Char} (hhex : '/' ∉ hex)
    {filenames paths : List (List Char)} (hup : createJob hex filenames = .loose paths)
    (hrel : ∀ f ∈ filenames, f.head? ≠ some '/' ∧ ['.', '.'] ∉ f.splitOn '/') :
    ∀ p ∈ paths, Inside (jobDir hex) p ∨ normpath p = normpath (jobDir hex) := by
  rw [createJob_loose hup]
  intro p hp
  obtain ⟨f, hf, rfl⟩ := List.mem_map.1 hp
  obtain ⟨habs, hdd⟩ := hrel f hf
  have hdir : normpath (jobDir hex) =
      ['/'].intercalate ["jobd".toList, "jobs".toList, "job_".toList ++ hex] := by
    rw [normpath_jobDir hhex]; simp [List.intercalate]
  rw [Inside, join_jobDir hhex habs, normpath_jobDir_append hhex hdd, hdir]
  -- the name keeps a component, or it is only separators and dots
  rcases List.eq_nil_or_concat ((f.splitOn '/').filter isPart) with h | ⟨L, c, h⟩
  · exact .inr (by rw [h, List.append_nil])
  · left
    rw [h, intercalate_append (by simp) (by simp)]
    exact ⟨_, by rw [List.append_assoc, List.singleton_append]⟩

theorem relative_upload_inside_main :
    '/' ∉ "0123456789abcdef0123456789abcdef".toList ∧
      createJob "0123456789abcdef0123456789abcdef".toList ["main.py".toList, "lib/util.py".toList] =
        .loose (["main.py".toList, "lib/util.py".toList].map
          (join (jobDir "0123456789abcdef0123456789abcdef".toList))) ∧
      (∀ f ∈ ["main.py".toList, "lib/util.py".toList],
        f.head? ≠ some '/' ∧ ['.', '.'] ∉ f.splitOn '/') ∧
      ∀ p ∈ ["main.py".toList, "lib/util.py".toList].map
          (join (jobDir "0123456789abcdef0123456789abcdef".toList)),
        Inside (jobDir "0123456789abcdef0123456789abcdef".toList) p ∨
          normpath p = normpath (jobDir "0123456789abcdef0123456789abcdef".toList) :=
  have hhex : '/' ∉ "0123456789abcdef0123456789abcdef".toList := by decide
  have hup : createJob "0123456789abcdef0123456789abcdef".toList ["main.py".toList, "lib/util.py".toList] =
      .loose (["main.py".toList, "lib/util.py".toList].map
        (join (jobDir "0123456789abcdef0123456789abcdef".toList))) := by decide
  have hrel : ∀ f ∈ ["main.py".toList, "lib/util.py".toList],
      f.head? ≠ some '/' ∧ ['.', '.'] ∉ f.splitOn '/' := by decide
  ⟨hhex, hup, hrel, relative_upload_inside hhex hup hrel⟩

/-- **Names that leave the job directory.**  Whatever the job directory's uuid, an
absolute filename is opened as it is, and `../escape.py` is opened in `./jobd/jobs`: both
are outside the job directory. -/
theorem upload_escapes_job_dir (hex : List Char) (hhex : '/' ∉ hex) :
    createJob hex ["/etc/passwd".toList] = .loose ["/etc/passwd".toList] ∧
      ¬Inside (jobDir hex) "/etc/passwd".toList ∧
    createJob hex ["../escape.py".toList] = .loose [jobDir hex ++ "/../escape.py".toList] ∧
      normpath (jobDir hex ++ "/../escape.py".toList) = "jobd/jobs/escape.py".toList ∧
      ¬Inside (jobDir hex) (jobDir hex ++ "/../escape.py".toList) := by
  have hesc : normpath (jobDir hex ++ "/../escape.py".toList) = "jobd/jobs/escape.py".toList := by
    unfold normpath
    rw [if_neg (by simp [jobDir]), initialSlashes_jobDir, show "/../escape.py".toList =
      '/' :: "../escape.py".toList from rfl, splitOn_append_sep, List.foldl_append, foldl_jobDir hhex]
    simp [normComp, List.intercalate, List.splitOn]
  have hetc : normpath "/etc/passwd".toList = "/etc/passwd".toList := by decide
  refine ⟨?_, ?_, ?_, hesc, ?_⟩
  · rw [createJob, if_neg (by decide), if_neg (by decide), List.map_singleton, join,
      if_pos (by decide)]
  · rw [Inside, normpath_jobDir hhex, hetc]
    rintro ⟨t, ht⟩
    simp at ht
  · rw [createJob, if_neg (by decide), if_neg (by decide), List.map_singleton,
      join_jobDir hhex (by decide)]
    rfl
  · rw [Inside, normpath_jobDir hhex, hesc]
    rintro ⟨t, ht⟩
    simp at ht

theorem upload_escapes_job_dir_hex :
    '/' ∉ "0123456789abcdef0123456789abcdef".toList ∧
      (createJob "0123456789abcdef0123456789abcdef".toList ["/etc/passwd".toList] =
          .loose ["/etc/passwd".toList] ∧
        ¬Inside (jobDir "0123456789abcdef0123456789abcdef".toList) "/etc/passwd".toList ∧
      createJob "0123456789abcdef0123456789abcdef".toList ["../escape.py".toList] =
          .loose [jobDir "0123456789abcdef0123456789abcdef".toList ++ "/../escape.py".toList] ∧
        normpath (jobDir "0123456789abcdef0123456789abcdef".toList ++ "/../escape.py".toList) =
          "jobd/jobs/escape.py".toList ∧
        ¬Inside (jobDir "0123456789abcdef0123456789abcdef".toList)
          (jobDir "0123456789abcdef0123456789abcdef".toList ++ "/../escape.py".toList)) :=
  ⟨by decide, upload_escapes_job_dir _ (by decide)⟩

end Sandrun.Routes
