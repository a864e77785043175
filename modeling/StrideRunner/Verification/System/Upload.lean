import StrideRunner.Model.Utils.SolutionUpload
import StrideRunner.Verification.Settings
import StrideRunner.Verification.System.Correctness

/-! # What the server learns from an upload

The body of a request is self-delimiting, so it tells who has sent what, and a body that has been
cut off is none. With what a run sends this makes every `valid` that arrives a dominating set. -/

namespace StrideRunner

open Pace Library InstanceWriter

/-! ## Parts of the body -/

theorem jsonNat_injective : Function.Injective jsonNat :=
  encodeUtf8_injective.comp decimal_injective

theorem notMem_jsonNat {c : Char} (hdigit : c.isDigit = false) (hascii : c.toNat ≤ 127) (n : ℕ) :
    UInt8.ofNat c.toNat ∉ jsonNat n :=
  notMem_encodeUtf8 hascii ((isDecimal_decimal n).notMem hdigit)

theorem jsonNat_ne_nil (n : ℕ) : jsonNat n ≠ [] := by
  intro h
  exact (isDecimal_decimal n).nonempty (encodeUtf8_injective h)

theorem selfDelimiting_jsonQuoted : SelfDelimiting jsonQuoted :=
  (Uuid.selfDelimiting_display.suffix [34]).literal [34]

theorem selfDelimiting_jsonNodes :
    SelfDelimiting fun data : List ℕ => ((data.map jsonNat).intersperse [44]).flatten ++ [93] :=
  SelfDelimiting.separated jsonNat_injective jsonNat_ne_nil
    (notMem_jsonNat (c := ',') rfl (by decide)) (notMem_jsonNat (c := ']') rfl (by decide))
    (by decide)

namespace SolverResult

theorem notMem_status (result : SolverResult) : 34 ∉ ascii result.status := by
  cases result with
  | valid data => exact (by decide : (34 : UInt8) ∉ ascii "valid")
  | _ => decide

/-- The tag decides about the variant. -/
theorem selfDelimiting_json : SelfDelimiting json := by
  intro a b rest rest' heq
  simp only [json, List.append_assoc] at heq
  obtain ⟨hstatus, hfields⟩ := append_cons_inj_of_notMem_left (notMem_status a) (notMem_status b)
    (List.append_cancel_left heq)
  have hstatus : a.status = b.status := String.toList_inj.mp (encodeUtf8_injective hstatus)
  have hdata := (selfDelimiting_jsonNodes.suffix [125]).literal (ascii ",\"data\":[")
  cases a with
  | valid data =>
      cases b with
      | valid data' =>
          obtain ⟨rfl, hrest⟩ := hdata data data' rest rest' hfields
          exact ⟨rfl, hrest⟩
      | _ => simp [status] at hstatus
  | validCached => cases b <;> simp_all [status, jsonFields]
  | infeasible => cases b <;> simp_all [status, jsonFields]
  | syntaxError => cases b <;> simp_all [status, jsonFields]
  | timeout => cases b <;> simp_all [status, jsonFields]
  | incompleteOutput => cases b <;> simp_all [status, jsonFields]

end SolverResult

namespace SolutionUploadRequest

variable {format : JsonSeconds}

theorem notMem_seconds (time : Option ℕ) : 44 ∉ seconds format time := by
  cases time with
  | none => exact (by decide : (44 : UInt8) ∉ ascii "null")
  | some time => exact format.notMem_comma time

/-! ## The body -/

/-- The request as far as the server can see it: the time is what is printed. -/
def fields (format : JsonSeconds) (self : SolutionUploadRequest) :
    ((((IId × Uuid) × Option Uuid) × {text : Bytes // 44 ∉ text}) × SolverResult) × Bool :=
  (((((self.instanceId, self.runUuid), self.solverUuid),
    ⟨seconds format self.secondsComputed, notMem_seconds _⟩), self.result), self.dryRun)

theorem selfDelimiting_instanceId :
    SelfDelimiting fun iid : IId => jsonNat iid.id.toNat ++ [44] := by
  have hnumber : SelfDelimiting fun n => jsonNat n ++ [44] :=
    SelfDelimiting.terminated jsonNat_injective (notMem_jsonNat (c := ',') rfl (by decide))
  refine hnumber.comp fun iid iid' h => ?_
  rw [IId.mk.injEq, ← UInt32.toNat_inj]
  exact h

theorem selfDelimiting_solverUuid : SelfDelimiting fun uuid : Option Uuid =>
    uuid.elim [] (fun uuid => ascii "\"solver_uuid\":" ++ (jsonQuoted uuid ++ [44])) ++
      ascii "\"seconds_computed\":" := by
  refine ((selfDelimiting_jsonQuoted.suffix [44]).literal _).optional ?_
  -- the two names differ in their second letters
  intro uuid rest rest' heq
  cases congrArg (fun text : Bytes => text[2]?) heq

theorem selfDelimiting_dryRun : SelfDelimiting fun dryRun : Bool =>
    (if dryRun then ascii ",\"dry_run\":true" else []) ++ [125] := by
  intro a b rest rest' heq
  cases a with
  | false =>
      cases b with
      | false => exact ⟨rfl, List.append_cancel_left heq⟩
      | true => cases congrArg List.head? heq
  | true =>
      cases b with
      | false => cases congrArg List.head? heq
      | true => exact ⟨rfl, List.append_cancel_left heq⟩

theorem fields_of_body {request request' : SolutionUploadRequest} {rest rest' : Bytes}
    (h : request.body format ++ rest = request'.body format ++ rest') :
    request.fields format = request'.fields format ∧ rest = rest' := by
  have hseconds : SelfDelimiting fun text : {text : Bytes // 44 ∉ text} => text.val ++ [44] :=
    SelfDelimiting.terminated Subtype.val_injective Subtype.prop
  have hbody := (((((selfDelimiting_instanceId.literal (ascii "\x7b\"instance_id\":")).append
    ((selfDelimiting_jsonQuoted.suffix [44]).literal (ascii "\"run_uuid\":"))).append
    selfDelimiting_solverUuid).append hseconds).append
    (SolverResult.selfDelimiting_json.literal (ascii "\"result\":"))).append selfDelimiting_dryRun
  exact hbody (request.fields format) (request'.fields format) rest rest' h

theorem seconds_of_fields {request : SolutionUploadRequest} {time : ℕ}
    (h : seconds format request.secondsComputed = format.print time) :
    request.secondsComputed.map format.print = some (format.print time) := by
  cases hseconds : request.secondsComputed with
  | none =>
      rw [hseconds] at h
      exact (format.ne_null time h.symm).elim
  | some other =>
      rw [hseconds] at h
      exact congrArg some h

end SolutionUploadRequest

/-! ## The uploads of a run -/

namespace SystemState

/-- What the server can tell when it has received the body of `request` as the first bytes of a
request of the job for `iid`. -/
structure UploadSpec (env : RunEnvironment) (format : JsonSeconds) (runUuid : Uuid) (iid : IId)
    (result : SolverResult) (request : SolutionUploadRequest) : Prop where
  whole : request.body format = (Job.uploadRequest env runUuid iid result).body format
  instanceId : request.instanceId = iid
  runUuid : request.runUuid = runUuid
  solverUuid : request.solverUuid = env.opts.solverUuid.map Uuid.fromU128
  secondsComputed : request.secondsComputed.map format.print = some (format.print (env.runtime iid))
  result : request.result = result
  valid : ∀ ids, request.result = .valid ids → ∃ info text n edges,
    env.fetchInstance request.instanceId = .ok info ∧
      env.fetchData request.instanceId info.dataDid = .ok text ∧
      WellFormedInstance env.profile (encodeUtf8 (env.prepare text)) n edges ∧
      IsDomset n edges ids

/-- The body tells who has sent which result, and only verdicts of the verifier are sent. -/
theorem upload_identifies {env : RunEnvironment} {instances : List IId} {fs : FileSystem}
    {s : SystemState} {actions : List SystemAction} (hslots : 1 ≤ env.opts.parallelJobs)
    (hnodup : instances.Nodup) (hrun : exec (step env) actions (start env instances fs) = some s)
    {handle : ℕ} {iid : IId} (hiid : instances[handle]? = some iid) {result : SolverResult}
    (hsent : (s.shared.locals handle).sent = some result) {format : JsonSeconds} {runUuid : Uuid}
    {request : SolutionUploadRequest}
    (hbody : request.body format <+: (Job.uploadRequest env runUuid iid result).body format) :
    UploadSpec env format runUuid iid result request := by
  obtain ⟨rest, hbody⟩ := hbody
  rw [← List.append_nil ((Job.uploadRequest env runUuid iid result).body format)] at hbody
  obtain ⟨hfields, rfl⟩ := SolutionUploadRequest.fields_of_body hbody
  simp only [SolutionUploadRequest.fields, Job.uploadRequest, Prod.mk.injEq, Subtype.mk.injEq,
    and_assoc] at hfields
  obtain ⟨hinstance, hrunUuid, hsolver, hseconds, hresult, _⟩ := hfields
  refine ⟨by simpa only [List.append_nil] using hbody, hinstance, hrunUuid, hsolver,
    SolutionUploadRequest.seconds_of_fields hseconds, hresult, ?_⟩
  intro ids hids
  rw [hresult] at hids
  subst hids
  obtain ⟨alone, _, hinv⟩ := exists_job hslots hnodup hrun hiid
  obtain ⟨info, data, hjudged, _⟩ := sentOnly_of_jobInvariant hinv _ hsent
  obtain ⟨text, htext, rfl⟩ := hjudged.input
  obtain ⟨n, edges, hwell, hdomset⟩ := SolverExecutor.isDomset_of_run hjudged.verdict
  rw [hinstance]
  exact ⟨info, text, n, edges, hjudged.row, htext, hwell, hdomset⟩

/-- Whole seconds, as a JSON number. -/
def wholeJsonSeconds : JsonSeconds where
  print := fun time => jsonNat (time / 1000000000)
  notMem_comma := fun _ => notMem_jsonNat (c := ',') rfl (by decide) _
  ne_null := by
    intro time h
    have hletter : 'n' ∈ decimal (time / 1000000000) := by
      rw [encodeUtf8_injective h]
      decide
    exact (isDecimal_decimal _).notMem rfl hletter

theorem upload_identifies_pair :
    ∃ s, exec (step pairEnvironment) pairActions
        (start pairEnvironment pairInstances fun _ => none) = some s ∧
      UploadSpec pairEnvironment wholeJsonSeconds (Uuid.fromU128 7) ⟨1⟩ (.valid [1])
        (Job.uploadRequest pairEnvironment (Uuid.fromU128 7) ⟨1⟩ (.valid [1])) := by
  have hrun : (exec (step pairEnvironment) pairActions
      (start pairEnvironment pairInstances fun _ => none)).map
        (fun s => (s.shared.locals 0).sent) = some (some (.valid [1])) := by decide +kernel
  obtain ⟨s, hs, hsent⟩ := Option.map_eq_some_iff.mp hrun
  have hiid : pairInstances[0]? = some ⟨1⟩ := rfl
  exact ⟨s, hs, upload_identifies (by decide) (by decide) hs hiid hsent (List.prefix_refl _)⟩

end SystemState

end StrideRunner
