import Sandrun.Routes.Upload
import Sandrun.Routes.Handlers
import Sandrun.JobQueue.Commands

/-!
# `create_job`

`POST /jobs` checks that files were uploaded, makes the directory `./jobd/jobs/job_<hex>`
and writes the upload there, then chooses the interpreter: a nonempty `interpreter` must
be a value of `script_types`, and an empty one is looked up by the extension of `main`.
It enqueues the command `[interpreter, main, function, args]`.  Only the job directory is
made, so a file whose name has a directory part, such as `lib/util.py`, does not open, and
the request ends in a 500 with nothing enqueued (`createJobHandler_unopened`).

Two consequences reach past the handler.  The job the queue makes runs in its own
directory `./jobs/job_<hex>`, which `Job` draws from a later `uuid4()`; no file of the
upload is written there, so the command never finds the files it was sent with
(`uploads_outside_run_dir`).  And `function` and `args` are `None` unless the request
gives both, so `Popen` raises on the command of any other request and the job never
completes (`omitted_argument_job_never_completes`).

`posixpath.splitext` follows `genericpath._splitext` of CPython.

## Main definitions

* `rfind`, `splitext` — `str.rfind` and `posixpath.splitext`.
* `scriptTypes`, `chooseInterpreter`, `archiveMode` — the interpreter and the archive
  branches.
* `JobRequest`, `createJobRoute`, `createJobHandler` — the request, what the handler
  decides, and the handler on the queue.
* `runDir` — the directory a job's command runs in.

## Main results

* `createJobHandler_rejected` — a rejected request is answered 400, or 500 when a path of
  the upload does not open, and leaves the queue as it was, but for the uuid counter.
* `uploads_outside_run_dir` — no loose upload with a relative name without `..` is
  written into, or as, the directory the job runs in.
* `omitted_argument_job_never_completes` — in the repaired queue, a job enqueued for a
  request without `function` or without `args` is never completed.
-/

namespace Sandrun.Routes

open JobQueue JQ

/-! ### `posixpath.splitext` -/

/-- `p.rfind(c)`: the index of the last `c` in `p`, `-1` if there is none. -/
def rfind (p : List Char) (c : Char) : Int :=
  match p.reverse.indexOf? c with
  | some k => ((p.length - 1 - k : Nat) : Int)
  | none => -1

/-- `posixpath.splitext(p)`: the extension starts at the last `.` after the last `/`,
unless only dots come before that `.` in the last component. -/
def splitext (p : List Char) : List Char × List Char :=
  let sepIndex := rfind p '/'
  let dotIndex := rfind p '.'
  if sepIndex < dotIndex ∧
      ((p.drop (sepIndex + 1).toNat).take (dotIndex - (sepIndex + 1)).toNat).any (· ≠ '.') then
    (p.take dotIndex.toNat, p.drop dotIndex.toNat)
  else (p, [])

example : splitext "run.tar.gz".toList = ("run.tar".toList, ".gz".toList) ∧
    splitext ".tar".toList = (".tar".toList, []) ∧
    splitext "pkg.d/main".toList = ("pkg.d/main".toList, []) := by decide

/-- `posixpath.dirname(p)`: everything up to the last `/`, with the trailing slashes
stripped unless it is made of slashes only. -/
def dirname (p : List Char) : List Char :=
  let head := p.take (rfind p '/' + 1).toNat
  if head ≠ [] ∧ head.any (· ≠ '/') then (head.reverse.dropWhile (· = '/')).reverse else head

example : dirname "./jobd/x/lib/util.py".toList = "./jobd/x/lib".toList ∧
    dirname "main.py".toList = [] ∧ dirname "//x".toList = "//".toList := by decide

/-! ### The interpreter and the archive -/

/-- `script_types`, in its order. -/
def scriptTypes : List (String × String) :=
  [(".py", "python"), (".sh", "bash"), (".R", "Rsript"), (".js", "node")]

/-- The interpreter of the command, or the detail of the `HTTPException(400)`: a nonempty
`interpreter` must be a value of `script_types`; an empty one is the value of the
extension of `main`. -/
def chooseInterpreter (interpreter main : String) : Except String String :=
  if interpreter ≠ "" then
    if interpreter ∈ scriptTypes.map Prod.snd then .ok interpreter
    else .error "Unsupported interpreter."
  else
    let ext := String.mk (splitext main.toList).2
    match List.lookup ext scriptTypes with
    | some interpreter => .ok interpreter
    | none => .error ("Unsupported script extension: " ++ ext)

/-- The branch of a single archive on `os.path.splitext(filename)[1]`: `tarfile.open` with
mode `r` or `r:gz`, or `zipfile.ZipFile`; `none` for the `else` branch. -/
def archiveMode (filename : List Char) : Option String :=
  let ext := (splitext filename).2
  if ext = ".tar".toList then some "r"
  else if ext = ".gz".toList then some "r:gz"
  else if ext = ".zip".toList then some "zip"
  else none

/-- The `HTTPException` of the upload part of `create_job`, if it raises one. -/
def uploadError (hex : List Char) (filenames : List (List Char)) : Option (Nat × String) :=
  match createJob hex filenames with
  | .noFiles => some (400, "No files uploaded.")
  | .extract =>
    if (filenames.head?.bind archiveMode).isSome then none
    else some (400, "Unsupported aggregate file type.")
  | .loose _ => none

/-- The paths `create_job` opens for writing: those of a loose upload. -/
def uploadPaths (hex : List Char) (filenames : List (List Char)) : List (List Char) :=
  match createJob hex filenames with
  | .loose paths => paths
  | _ => []

/-! ### The handler -/

/-- A `POST /jobs` request: the uploaded files' names and the query parameters, with the
defaults of FastAPI in place (`interpreter` is `"python"` when the query omits it). -/
structure JobRequest where
  filenames : List (List Char)
  main : String
  function : Option String
  args : Option String
  interpreter : String
  secret : Option String

/-- What `create_job` decides: its `HTTPException`, or the interpreter and the command it
enqueues.  `hex` is the `uuid.uuid4().hex` of the job directory. -/
def createJobRoute (hex : List Char) (req : JobRequest) :
    Except (Nat × String) (String × List (Option String)) :=
  match uploadError hex req.filenames with
  | some e => .error e
  | none =>
    match chooseInterpreter req.interpreter req.main with
    | .error detail => .error (400, detail)
    | .ok interpreter => .ok (interpreter, [some interpreter, some req.main, req.function, req.args])

/-- `create_job` on the queue: past the first check it draws the `uuid4()` of the `job_id`
it later overwrites and the one of the job directory, which `hexOf` renders.  It opens each
path of a loose upload for writing: `opens` says whether `open(path, "wb")` succeeds on the
server's file system.  It raises `FileNotFoundError` for a path whose directory does not
exist, as for the name `lib/util.py`, since `os.makedirs` made the job directory only; the
handler does not catch it, and the answer is FastAPI's 500.  An accepted request goes to
`queue.enqueue`, whose `CalledProcessError` the handler does not catch either. -/
def createJobHandler (hashSecret : String → String) (hexOf : Nat → List Char)
    (opens : List Char → Bool) (req : JobRequest) (allowed : Bool) : JQ Response :=
  if req.filenames.length = 0 then pure (.httpError 400 "No files uploaded.")
  else do
    let _ ← uuid4
    let dir ← uuid4
    if (uploadPaths (hexOf dir) req.filenames).all opens then
      match createJobRoute (hexOf dir) req with
      | .error (code, detail) => pure (.httpError code detail)
      | .ok (interpreter, command) => do
        let jobId ← JobQueue.enqueue hashSecret command req.secret allowed
        pure (.ok (.message (interpreter ++ " job enqueued") jobId))
    else pure (.httpError 500 "Internal Server Error")

theorem chooseInterpreter_mem {interpreter main chosen : String}
    (h : chooseInterpreter interpreter main = .ok chosen) : chosen ∈ scriptTypes.map Prod.snd := by
  unfold chooseInterpreter at h
  dsimp only at h
  split_ifs at h with hi hm
  · cases h; exact hm
  · split at h
    · next interp hl =>
      cases h
      obtain ⟨l₁, l₂, he, -⟩ := List.lookup_eq_some_iff.1 hl
      exact List.mem_map.2 ⟨_, he ▸ List.mem_append_right l₁ (List.mem_cons_self _ l₂), rfl⟩
    · cases h

/-- An accepted request enqueues `[interpreter, main, function, args]`, with an
interpreter among the values of `script_types`. -/
theorem createJobRoute_ok {hex : List Char} {req : JobRequest} {interpreter : String}
    {command : List (Option String)} (h : createJobRoute hex req = .ok (interpreter, command)) :
    command = [some interpreter, some req.main, req.function, req.args] ∧
      interpreter ∈ scriptTypes.map Prod.snd := by
  unfold createJobRoute at h
  split at h
  · cases h
  · split at h
    · cases h
    · next interp hi => cases h; exact ⟨rfl, chooseInterpreter_mem hi⟩

theorem uploadError_code {hex : List Char} {filenames : List (List Char)} {e : Nat × String}
    (h : uploadError hex filenames = some e) : e.1 = 400 := by
  unfold uploadError at h
  split at h
  · cases h; rfl
  · split_ifs at h; cases h; rfl
  · cases h

/-- Every `HTTPException` `create_job` raises is a 400. -/
theorem createJobRoute_error {hex : List Char} {req : JobRequest} {e : Nat × String}
    (h : createJobRoute hex req = .error e) : e.1 = 400 := by
  unfold createJobRoute at h
  split at h
  · next he => cases h; exact uploadError_code he
  · split at h <;> cases h; rfl

theorem uploadPaths_of_length_eq_zero {hex : List Char} {filenames : List (List Char)}
    (h : filenames.length = 0) : uploadPaths hex filenames = [] := by
  simp [uploadPaths, createJob, h]

/-- **A rejected request changes nothing but the uuid counter.**  Whatever the lock, an
error answer of `create_job` is FastAPI's 500 when a path of the upload does not open, and
otherwise a 400; the queue is left as it was, past the two `uuid4()` draws when files were
sent. -/
theorem createJobHandler_rejected {hashSecret : String → String} {hexOf : Nat → List Char}
    {opens : List Char → Bool} {req : JobRequest} {allowed : Bool} {k : LockKind} {s s' : St}
    {code : Nat} {detail : String}
    (h : createJobHandler hashSecret hexOf opens req allowed k s = .ok (.httpError code detail) s') :
    code = (if (uploadPaths (hexOf (s.uuid + 1)) req.filenames).all opens then 400 else 500) ∧
      (s' = s ∨ s' = { s with uuid := s.uuid + 1 + 1 }) := by
  unfold createJobHandler at h
  split_ifs at h with h0
  · cases h
    simp [uploadPaths_of_length_eq_zero h0]
  simp only [bind_apply, uuid4] at h
  split_ifs at h with ho
  case neg => cases h; exact ⟨(if_neg ho).symm, .inr rfl⟩
  rw [if_pos ho]
  cases hr : createJobRoute (hexOf (s.uuid + 1)) req with
  | error e =>
    rw [hr] at h
    cases h
    exact ⟨createJobRoute_error hr, .inr rfl⟩
  | ok p =>
    rw [hr] at h
    -- an enqueue ends in a job id, an exception or a wait
    simp only [bind_apply] at h
    split at h <;> simp at h

/-- A loose upload with a path that does not open is answered 500, past the two `uuid4()`
draws, and enqueues nothing. -/
theorem createJobHandler_unopened {hashSecret : String → String} {hexOf : Nat → List Char}
    {opens : List Char → Bool} {req : JobRequest} {allowed : Bool} {k : LockKind} {s : St}
    (ho : (uploadPaths (hexOf (s.uuid + 1)) req.filenames).all opens = false) :
    createJobHandler hashSecret hexOf opens req allowed k s =
      .ok (.httpError 500 "Internal Server Error") { s with uuid := s.uuid + 1 + 1 } := by
  have h0 : req.filenames.length ≠ 0 := fun h0 => by
    simp [uploadPaths_of_length_eq_zero h0] at ho
  simp only [createJobHandler, if_neg h0, bind_apply, uuid4, ho, Bool.false_eq_true, if_false]
  rfl

/-- The upload of the module layout `main.py`, `lib/util.py`, on a file system where the
job directory is the only directory in which files are written. -/
example :
    createJobHandler id (fun _ => "9f".toList) (fun p => dirname p = jobDir "9f".toList)
      ⟨["main.py".toList, "lib/util.py".toList], "main.py", some "main", some "", "python", none⟩
      true .lock St.init = .ok (.httpError 500 "Internal Server Error") { St.init with uuid := 2 } :=
  createJobHandler_unopened (by decide)

/-- **What an accepted request leaves in the queue.**  When the handler answers with a
job id, every path of the upload opened, the queue holds, under that id, a job whose
command is the one `createJobRoute` decides with the directory's uuid, and the message
names its interpreter. -/
theorem createJobHandler_enqueued {hashSecret : String → String} {hexOf : Nat → List Char}
    {opens : List Char → Bool} {req : JobRequest} {allowed : Bool} {s s' : St} {msg : String}
    {jobId : Nat}
    (h : createJobHandler hashSecret hexOf opens req allowed .rlock s =
      .ok (.ok (.message msg jobId)) s') :
    (uploadPaths (hexOf (s.uuid + 1)) req.filenames).all opens ∧
      ∃ interpreter command, createJobRoute (hexOf (s.uuid + 1)) req = .ok (interpreter, command) ∧
        msg = interpreter ++ " job enqueued" ∧
        ∃ job, s'.jobs.get? jobId = some job ∧ job.command = command := by
  unfold createJobHandler at h
  split_ifs at h
  · cases h
  simp only [bind_apply, uuid4] at h
  split_ifs at h with ho
  case neg => cases h
  refine ⟨ho, ?_⟩
  cases hr : createJobRoute (hexOf (s.uuid + 1)) req with
  | error e => rw [hr] at h; cases h
  | ok p =>
    obtain ⟨interpreter, command⟩ := p
    rw [hr] at h
    dsimp only at h
    rw [bind_apply, enqueue_rlock] at h
    dsimp only at h
    -- `enqueue` returned: the new job sits under the first uuid it drew
    split_ifs at h <;>
      simp only [pure_apply, Outcome.ok.injEq, Response.ok.injEq, Body.message.injEq, reduceCtorEq] at h <;>
      obtain ⟨⟨rfl, rfl⟩, rfl⟩ := h <;>
      exact ⟨interpreter, command, rfl, rfl, _, by rw [PyDict.get?_set, if_pos rfl], rfl⟩

/-! ### Where the job runs -/

/-- `./jobs/job_<hex>`, the directory of the `Job` the queue makes, in which its command
runs. -/
def runDir (hex : List Char) : List Char := "./jobs/job_".toList ++ hex

theorem normpath_runDir {hex : List Char} (hhex : '/' ∉ hex) :
    normpath (runDir hex) = "jobs/job_".toList ++ hex := by
  have hsingle : hex.splitOn '/' = [hex] :=
    List.splitOnP_eq_single _ _ fun x hx h => hhex (by simpa using (beq_iff_eq.1 h) ▸ hx)
  have hsplit : (runDir hex).splitOn '/' = [['.'], "jobs".toList, "job_".toList ++ hex] := by
    simp [runDir, List.splitOn, List.splitOnP_cons] at hsingle ⊢
    simp [hsingle]
  unfold normpath
  rw [if_neg (by simp [runDir]), show initialSlashes (runDir hex) = 0 by simp [initialSlashes, runDir],
    hsplit]
  simp [normComp, List.intercalate]

/-- A relative upload without `..` normalises to a path under `jobd/`. -/
theorem normpath_upload {hex f : List Char} (hhex : '/' ∉ hex) (hdd : ['.', '.'] ∉ f.splitOn '/') :
    ∃ rest, normpath (jobDir hex ++ '/' :: f) = "jobd/".toList ++ rest := by
  rw [normpath_jobDir_append hhex hdd]
  exact ⟨['/'].intercalate ("jobs".toList :: ("job_".toList ++ hex) :: (f.splitOn '/').filter isPart),
    by simp [List.intercalate, List.intersperse_cons_cons]⟩

/-- **The job never sees its upload.**  For any `uuid4().hex` of the upload's directory
and any one of the job's own directory, no file of a loose upload whose name is relative
and has no `..` component is written into the directory where the enqueued job's command
runs, or as that directory: every path normalises under `jobd/`, and the job runs under
`jobs/`. -/
theorem uploads_outside_run_dir {hex hex' : List Char} (hhex : '/' ∉ hex) (hhex' : '/' ∉ hex')
    {filenames paths : List (List Char)} (hup : createJob hex filenames = .loose paths)
    (hrel : ∀ f ∈ filenames, f.head? ≠ some '/' ∧ ['.', '.'] ∉ f.splitOn '/') :
    ∀ p ∈ paths, ¬Inside (runDir hex') p ∧ normpath p ≠ normpath (runDir hex') := by
  rw [createJob_loose hup]
  intro p hp
  obtain ⟨f, hf, rfl⟩ := List.mem_map.1 hp
  obtain ⟨habs, hdd⟩ := hrel f hf
  obtain ⟨rest, hrest⟩ := normpath_upload hhex hdd
  rw [Inside, join_jobDir hhex habs, hrest, normpath_runDir hhex']
  constructor
  · rintro ⟨t, ht⟩; simp at ht
  · intro he; simp at he

theorem uploads_outside_run_dir_hex :
    '/' ∉ "0123456789abcdef0123456789abcdef".toList ∧ '/' ∉ "fedcba9876543210fedcba9876543210".toList ∧
      createJob "0123456789abcdef0123456789abcdef".toList ["main.py".toList, "lib/util.py".toList] =
        .loose (["main.py".toList, "lib/util.py".toList].map
          (join (jobDir "0123456789abcdef0123456789abcdef".toList))) ∧
      (∀ f ∈ ["main.py".toList, "lib/util.py".toList],
        f.head? ≠ some '/' ∧ ['.', '.'] ∉ f.splitOn '/') ∧
      ∀ p ∈ ["main.py".toList, "lib/util.py".toList].map
          (join (jobDir "0123456789abcdef0123456789abcdef".toList)),
        ¬Inside (runDir "fedcba9876543210fedcba9876543210".toList) p ∧
          normpath p ≠ normpath (runDir "fedcba9876543210fedcba9876543210".toList) :=
  have hhex : '/' ∉ "0123456789abcdef0123456789abcdef".toList := by decide
  have hhex' : '/' ∉ "fedcba9876543210fedcba9876543210".toList := by decide
  have hup : createJob "0123456789abcdef0123456789abcdef".toList ["main.py".toList, "lib/util.py".toList] =
      .loose (["main.py".toList, "lib/util.py".toList].map
        (join (jobDir "0123456789abcdef0123456789abcdef".toList))) := by decide
  have hrel : ∀ f ∈ ["main.py".toList, "lib/util.py".toList],
      f.head? ≠ some '/' ∧ ['.', '.'] ∉ f.splitOn '/' := by decide
  ⟨hhex, hhex', hup, hrel, uploads_outside_run_dir hhex hhex' hup hrel⟩

/-! ### Commands with `None` -/

/-- **A job without `function` or `args` never completes.**  In every run of the repaired
queue (any interleaving of enqueues, executions, cancels, restarts, deletes and crashes) in
which `Popen` raises on a command with a `None` element, a job whose command is the one
`create_job` builds for a request that omits `function` or `args` is not completed, in
the table or in the ledger. -/
theorem omitted_argument_job_never_completes {hashSecret : String → String} {w : World}
    (hr : ReachableBy hashSecret (fun a => a.popenRejectsNone) w) {hex : List Char}
    {req : JobRequest} {interpreter : String} {command : List (Option String)}
    (hc : createJobRoute hex req = .ok (interpreter, command))
    (hfa : req.function = none ∨ req.args = none) {j : Nat} {job : Job}
    (hj : w.st.jobs.get? j = some job ∨ w.st.ledger.get? j = some job) (hcmd : job.command = command) :
    job.status ≠ "completed" := by
  have hn : none ∈ job.command := by
    rw [hcmd, (createJobRoute_ok hc).1]
    rcases hfa with h | h <;> simp [h]
  have hi := hr.noneFails
  rcases hj with hj | hj
  · exact hi.jobs j job hj hn
  · exact hi.ledger j job hj hn

/-- A request with `main.py` only, and neither `function` nor `args`. -/
def defaultRequest : JobRequest :=
  ⟨["main.py".toList], "main.py", none, none, "python", none⟩

/-- The queue enqueues that request's command, runs it, and `Popen` raises. -/
def defaultRun : List Act :=
  [.enqueue [some "python", some "main.py", none, none] none true, .start 0,
    .finish ⟨0, ⟨0, 1, 2, [some "python", some "main.py", none, none], "queued", "", none⟩, .started⟩
      (.raised "expected str, bytes or os.PathLike object, not NoneType")]

example :
    ∃ w job, steps id World.init defaultRun = some w ∧
      createJobRoute "0123456789abcdef0123456789abcdef".toList defaultRequest =
        .ok ("python", [some "python", some "main.py", none, none]) ∧
      (defaultRequest.function = none ∨ defaultRequest.args = none) ∧
      (w.st.jobs.get? 0 = some job ∨ w.st.ledger.get? 0 = some job) ∧
      job.command = [some "python", some "main.py", none, none] ∧ job.status ≠ "completed" :=
  ⟨_, _, rfl, rfl, .inl rfl, .inl rfl, rfl, @omitted_argument_job_never_completes id _
    (@ReachableBy.of_steps id (fun a => a.popenRejectsNone) World.init _ defaultRun .init (by decide) rfl)
    "0123456789abcdef0123456789abcdef".toList defaultRequest "python"
    [some "python", some "main.py", none, none] rfl (.inl rfl) 0 _ (.inl rfl) rfl⟩

end Sandrun.Routes
