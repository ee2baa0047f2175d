import Sandrun.Routes.Create

/-!
# Starting the service

`lifespan` in `main.py` makes `./jobd/jobs` and walks `glob("job_*")` there, to delete the
job directories older than a day.  For each directory it evaluates
`Path.ctime(Path())`.  `pathlib.Path` has no attribute `ctime`, so the first directory the
walk meets raises `AttributeError`: FastAPI's startup fails, the server exits, and no
directory is deleted.

`create_job` makes `./jobd/jobs/job_<hex>` for every request with files, before it looks
at anything else, and keeps it whether it accepts the request or not.  Nothing else
removes an entry of `./jobd/jobs` (`delete_job` removes the job's own directory under
`./jobs`).  So once the service has handled one request with files, it never starts
again (`upload_blocks_restart`).

The system here is the listing of `./jobd/jobs` and whether the server runs: requests
reach a running server, which may stop, and a stopped server may be started.  `main.py`
imports `routes.py`, whose `from fastapi import ..., FileResponse` fails as written, since
`fastapi` exports `FileResponse` only from `fastapi.responses`; a start is modelled as it
runs once that import succeeds, the point from which `lifespan` decides the outcome.

## Main definitions

* `Entry`, `globJob`, `lifespanStartup` — the entries of `./jobd/jobs`, the pattern
  `job_*`, and the startup half of `lifespan`.
* `makedirs`, `Service.step` — `os.makedirs(job_dir, exist_ok=True)` of `create_job`, and
  the steps of the service.

## Main results

* `lifespanStartup_eq_ok_iff` — startup succeeds exactly when no `job_*` entry is a
  directory.
* `Service.Blocked.steps` — once a `job_*` directory exists, it exists after every run.
* `upload_blocks_restart` — no run that serves a request with files ends with a start
  that brings the server up.
-/

namespace Sandrun.Startup

open Routes

/-! ### `lifespan` -/

/-- An entry of `./jobd/jobs`. -/
structure Entry where
  name : List Char
  isDir : Bool
  deriving DecidableEq, Repr

/-- Whether `Path.glob("job_*")` yields the entry: its name starts with `job_`. -/
def globJob (name : List Char) : Bool := "job_".toList.isPrefixOf name

/-- The loop of `lifespan` over the entries `glob` yields: at the first directory,
`Path.ctime(Path())` raises before the age is computed, so `shutil.rmtree` is never
reached. -/
def cleanupLoop : List Entry → Except String Unit
  | [] => .ok ()
  | e :: es =>
    if e.isDir then .error "type object 'Path' has no attribute 'ctime'" else cleanupLoop es

/-- The startup half of `lifespan` on the entries of `./jobd/jobs`, in the order `glob`
yields them.  The `mkdir` calls change no entry. -/
def lifespanStartup (es : List Entry) : Except String Unit :=
  cleanupLoop (es.filter fun e => globJob e.name)

theorem cleanupLoop_eq_ok_iff {es : List Entry} :
    cleanupLoop es = .ok () ↔ ∀ e ∈ es, e.isDir = false := by
  induction es with
  | nil => simp [cleanupLoop]
  | cons e es ih => cases h : e.isDir <;> simp [cleanupLoop, h, ih]

theorem lifespanStartup_eq_ok_iff {es : List Entry} :
    lifespanStartup es = .ok () ↔ ∀ e ∈ es, globJob e.name = true → e.isDir = false := by
  simp [lifespanStartup, cleanupLoop_eq_ok_iff]

/-! ### `create_job` -/

/-- `job_<hex>`, the name of the directory `create_job` makes in `./jobd/jobs`. -/
def jobEntry (hex : List Char) : List Char := "job_".toList ++ hex

@[simp] theorem globJob_jobEntry (hex : List Char) : globJob (jobEntry hex) = true := by
  simp [globJob, jobEntry, List.isPrefixOf_iff_prefix]

/-- `os.makedirs(path, exist_ok=True)` for the entry `name` of `./jobd/jobs`: a directory
that exists is kept, a file of that name raises `FileExistsError`. -/
def makedirs (name : List Char) (es : List Entry) : Except String (List Entry) :=
  match es.find? (·.name = name) with
  | none => .ok (es ++ [⟨name, true⟩])
  | some e => if e.isDir then .ok es else .error "FileExistsError"

theorem makedirs_subset {name : List Char} {es es' : List Entry}
    (h : makedirs name es = .ok es') : es ⊆ es' := by
  unfold makedirs at h
  split at h
  · cases h; exact List.subset_append_left _ _
  · split_ifs at h; cases h; exact List.Subset.refl _

/-- Every entry is a directory. -/
def AllDirs (es : List Entry) : Prop := ∀ e ∈ es, e.isDir = true

theorem makedirs_of_allDirs {name : List Char} {es : List Entry} (h : AllDirs es) :
    ∃ es', makedirs name es = .ok es' ∧ es ⊆ es' ∧ ⟨name, true⟩ ∈ es' ∧ AllDirs es' := by
  unfold makedirs
  cases hf : es.find? (·.name = name) with
  | none =>
    refine ⟨_, rfl, List.subset_append_left _ _, by simp, ?_⟩
    simpa [AllDirs, or_imp, forall_and] using h
  | some e =>
    have he := List.mem_of_find?_eq_some hf
    have hname : e.name = name := by simpa using List.find?_some hf
    have hdir := h e he
    refine ⟨es, by simp [hdir], List.Subset.refl _, ?_, h⟩
    cases e; simp_all

/-! ### The service -/

/-- The listing of `./jobd/jobs` and whether the server runs. -/
structure Service where
  entries : List Entry
  up : Bool

/-- A fresh installation: `./jobd/jobs` is empty and the server has not started. -/
def Service.init : Service := ⟨[], false⟩

/-- What happens to the service. -/
inductive Event
  /-- A `POST /jobs` request; `hex` is the `uuid.uuid4().hex` of its job directory. -/
  | createJob (hex : List Char) (req : JobRequest)
  /-- The server exits. -/
  | stop
  /-- The server starts: `lifespan` runs before any request is served. -/
  | start

/-- One step of the service.  A request reaches a running server; past its first check
`create_job` makes its directory, and an exception there ends the request with the listing
as it was.  A start whose `lifespan` raises leaves the server down. -/
def Service.step (s : Service) : Event → Option Service
  | .createJob hex req =>
    if s.up then
      if req.filenames.length = 0 then some s
      else match makedirs (jobEntry hex) s.entries with
        | .ok es => some { s with entries := es }
        | .error _ => some s
    else none
  | .stop => if s.up then some { s with up := false } else none
  | .start =>
    if s.up then none
    else match lifespanStartup s.entries with
      | .ok () => some { s with up := true }
      | .error _ => some s

/-- The service after a run of events, `none` if one of them cannot happen. -/
def Service.steps (s : Service) : List Event → Option Service
  | [] => some s
  | ev :: evs => (s.step ev).bind (Service.steps · evs)

@[simp] theorem Service.steps_append (s : Service) (evs evs' : List Event) :
    s.steps (evs ++ evs') = (s.steps evs).bind (Service.steps · evs') := by
  induction evs generalizing s with
  | nil => rfl
  | cons ev evs ih => cases h : s.step ev <;> simp [Service.steps, h, ih]

/-- `./jobd/jobs` holds a `job_*` directory. -/
def Service.Blocked (s : Service) : Prop := ∃ e ∈ s.entries, globJob e.name = true ∧ e.isDir = true

section Steps

variable {s s' : Service} {ev : Event}

/-- Every step keeps the entries there were. -/
theorem Service.step_entries (h : s.step ev = some s') : s.entries ⊆ s'.entries := by
  cases ev with
  | createJob hex req =>
    simp only [Service.step] at h
    split_ifs at h
    · cases h; exact List.Subset.refl _
    · split at h <;> cases h
      · exact makedirs_subset ‹_›
      · exact List.Subset.refl _
  | stop => simp only [Service.step] at h; split_ifs at h; cases h; exact List.Subset.refl _
  | start =>
    simp only [Service.step] at h
    split_ifs at h
    split at h <;> cases h <;> exact List.Subset.refl _

theorem Service.step_allDirs (h : s.step ev = some s') (hd : AllDirs s.entries) :
    AllDirs s'.entries := by
  cases ev with
  | createJob hex req =>
    simp only [Service.step] at h
    split_ifs at h
    · cases h; exact hd
    · obtain ⟨es, hm, -, -, hes⟩ := @makedirs_of_allDirs (jobEntry hex) _ hd
      rw [hm] at h; cases h; exact hes
  | stop => simp only [Service.step] at h; split_ifs at h; cases h; exact hd
  | start =>
    simp only [Service.step] at h
    split_ifs at h
    split at h <;> cases h <;> exact hd

theorem Service.Blocked.step (hb : s.Blocked) (h : s.step ev = some s') : s'.Blocked :=
  let ⟨e, he, hs⟩ := hb
  ⟨e, Service.step_entries h he, hs⟩

/-- A start of a blocked service leaves it down. -/
theorem Service.Blocked.start (hb : s.Blocked) (h : s.step .start = some s') :
    s'.up = false := by
  obtain ⟨e, he, hg, hdir⟩ := hb
  simp only [Service.step] at h
  split_ifs at h with hup
  have : lifespanStartup s.entries ≠ .ok () := fun hok =>
    absurd (lifespanStartup_eq_ok_iff.1 hok e he hg) (by simp [hdir])
  split at h
  · contradiction
  · cases h; simpa using hup

/-- A request with files to a service whose entries are directories blocks it. -/
theorem Service.blocked_of_createJob {hex : List Char} {req : JobRequest}
    (hd : AllDirs s.entries) (hf : req.filenames ≠ [])
    (h : s.step (.createJob hex req) = some s') : s'.Blocked := by
  obtain ⟨es, hm, -, hmem, -⟩ := @makedirs_of_allDirs (jobEntry hex) _ hd
  simp only [Service.step, hm, List.length_eq_zero, hf, if_false] at h
  split_ifs at h
  cases h
  exact ⟨_, hmem, globJob_jobEntry hex, rfl⟩

theorem Service.Blocked.steps {evs : List Event} (hb : s.Blocked)
    (h : s.steps evs = some s') : s'.Blocked := by
  induction evs generalizing s with
  | nil => cases h; exact hb
  | cons ev evs ih =>
    obtain ⟨t, ht, h⟩ := Option.bind_eq_some.1 h
    exact ih (hb.step ht) h

theorem Service.steps_allDirs {evs : List Event} (hd : AllDirs s.entries)
    (h : s.steps evs = some s') : AllDirs s'.entries := by
  induction evs generalizing s with
  | nil => cases h; exact hd
  | cons ev evs ih =>
    obtain ⟨t, ht, h⟩ := Option.bind_eq_some.1 h
    exact ih (Service.step_allDirs ht hd) h

end Steps

/-- Once the service has handled a `POST /jobs` request with files, no later start brings
the server up: from a listing of directories (a fresh installation has none), a run that
serves such a request and ends with a start ends with the server down. -/
theorem upload_blocks_restart {s s' : Service} (hd : AllDirs s.entries) {pre post : List Event}
    {hex : List Char} {req : JobRequest} (hf : req.filenames ≠ [])
    (h : s.steps (pre ++ .createJob hex req :: post ++ [.start]) = some s') : s'.up = false := by
  simp only [Service.steps_append] at h
  obtain ⟨x, hx, h⟩ := Option.bind_eq_some.1 h
  obtain ⟨t, ht, hx⟩ := Option.bind_eq_some.1 hx
  obtain ⟨u, hu, hv⟩ := Option.bind_eq_some.1 hx
  have hb := (Service.blocked_of_createJob (Service.steps_allDirs hd ht) hf hu).steps hv
  exact hb.start (by simpa [Service.steps] using h)

/-- A fresh installation that starts, takes one script, stops and is started again. -/
theorem upload_blocks_restart_fresh :
    ∃ s', Service.init.steps
        ([.start] ++ .createJob "9f".toList defaultRequest :: [.stop] ++ [.start]) = some s' ∧
      s'.up = false :=
  ⟨_, rfl, @upload_blocks_restart Service.init _ nofun [.start] [.stop] "9f".toList defaultRequest
    (by decide) rfl⟩

end Sandrun.Startup
