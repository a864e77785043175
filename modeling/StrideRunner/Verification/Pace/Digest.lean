import StrideRunner.Verification.Pace.Transcription

/-! # The digest of a solution

Solutions that have been read are sorted, so the hashed bytes are determined by the set of nodes.
Every id fits four bytes, so they determine it as well. -/

namespace StrideRunner.Pace.Solution

open StrideRunner Library

variable {profile : BuildProfile} {δ : Type}

theorem length_toLeBytes (value : ℕ) : (toLeBytes value).length = 4 := rfl

theorem toLeBytes_inj {a b : ℕ} (ha : a < U32_SIZE) (hb : b < U32_SIZE)
    (h : toLeBytes a = toLeBytes b) : a = b := by
  have hsize : U32_SIZE = 256 * 256 * 256 * 256 := rfl
  simp only [toLeBytes, List.cons.injEq, and_true, ← UInt8.toNat_inj, UInt8.toNat_ofNat'] at h
  omega

/-- The bytes that are fed to the hasher. -/
def digestInput (nodes : List ℕ) : Bytes :=
  nodes.flatMap fun node => toLeBytes (node + 1)

theorem updateNodes_eq (hasher : Hasher UInt8 δ) {nodes : List ℕ}
    (h : ∀ node ∈ nodes, node + 1 < U32_SIZE) (state : hasher.State) :
    updateNodes profile hasher nodes state =
      .ok ((nodes.map fun node => toLeBytes (node + 1)).foldl hasher.update state) := by
  induction nodes generalizing state with
  | nil => rfl
  | cons node nodes ih =>
      obtain ⟨hnode, hnodes⟩ := List.forall_mem_cons.mp h
      have hadd : (u32Add profile node 1 : Outcome IoError ℕ) = .ok (node + 1) :=
        u32Add_of_lt profile hnode
      rw [updateNodes, hadd, Outcome.ok_bind, ih hnodes, List.map_cons, List.foldl_cons]

theorem computeDigest_eq (hasher : Hasher UInt8 δ) {s : Solution}
    (h : ∀ node ∈ s.solution, node + 1 < U32_SIZE) :
    computeDigest profile hasher s = .ok (hasher.hash (digestInput s.solution)) := by
  rw [computeDigest, updateNodes_eq hasher h, Outcome.ok_bind, hasher.finalize_foldl]
  rfl

theorem digestInput_inj {nodes nodes' : List ℕ} (h : ∀ node ∈ nodes, node + 1 < U32_SIZE)
    (h' : ∀ node ∈ nodes', node + 1 < U32_SIZE) (heq : digestInput nodes = digestInput nodes') :
    nodes = nodes' := by
  refine flatMap_inj_of_length (by decide : 0 < 4) (fun _ => length_toLeBytes _) ?_ heq
  intro node hnode node' hnode' hbytes
  exact Nat.succ_injective (toLeBytes_inj (h node hnode) (h' node' hnode') hbytes)

/-- What the digests of two solutions say about their nodes. The recorder gives the bytes that are
hashed. -/
structure DigestSpec (profile : BuildProfile) (s t : Solution) (bytes bytes' : Bytes) : Prop where
  no_overflow : (∀ node ∈ s.solution, node + 1 < U32_SIZE) ∧
    ∀ node ∈ t.solution, node + 1 < U32_SIZE
  fed : computeDigest profile .recorder s = .ok bytes ∧
    computeDigest profile .recorder t = .ok bytes'
  bytes_eq_iff : bytes = bytes' ↔ ∀ node, node ∈ s.solution ↔ node ∈ t.solution
  digest : ∀ (δ : Type) (sha1 : Hasher UInt8 δ),
    computeDigest profile sha1 s = .ok (sha1.hash bytes) ∧
      computeDigest profile sha1 t = .ok (sha1.hash bytes')
  same_digest : (∀ node, node ∈ s.solution ↔ node ∈ t.solution) →
    ∀ (δ : Type) (sha1 : Hasher UInt8 δ),
      computeDigest profile sha1 s = computeDigest profile sha1 t
  only_collisions : ¬ (∀ node, node ∈ s.solution ↔ node ∈ t.solution) →
    ∀ (δ : Type) (sha1 : Hasher UInt8 δ),
      computeDigest profile sha1 s = computeDigest profile sha1 t →
      bytes ≠ bytes' ∧ sha1.hash bytes = sha1.hash bytes'

theorem digest_identifies {file file' : Bytes} {nodesUpperBound nodesUpperBound' : Option ℕ}
    {s t : Solution} (hs : read file nodesUpperBound = .ok s)
    (ht : read file' nodesUpperBound' = .ok t) (profile : BuildProfile) :
    ∃ bytes bytes', DigestSpec profile s t bytes bytes' := by
  obtain ⟨hsorted, hlt, _⟩ := spec_of_read hs
  obtain ⟨hsorted', hlt', _⟩ := spec_of_read ht
  have hiff : digestInput s.solution = digestInput t.solution ↔
      ∀ node, node ∈ s.solution ↔ node ∈ t.solution := by
    constructor
    · intro h node
      rw [digestInput_inj hlt hlt' h]
    · intro h
      rw [hsorted.eq_of_mem_iff hsorted' h]
  refine ⟨digestInput s.solution, digestInput t.solution, ⟨hlt, hlt'⟩, ?_, hiff, ?_, ?_, ?_⟩
  · rw [computeDigest_eq _ hlt, computeDigest_eq _ hlt', Hasher.hash_recorder,
      Hasher.hash_recorder]
    exact ⟨rfl, rfl⟩
  · intro δ sha1
    exact ⟨computeDigest_eq sha1 hlt, computeDigest_eq sha1 hlt'⟩
  · intro h δ sha1
    rw [computeDigest_eq sha1 hlt, computeDigest_eq sha1 hlt', hiff.mpr h]
  · intro h δ sha1 heq
    rw [computeDigest_eq sha1 hlt, computeDigest_eq sha1 hlt'] at heq
    exact ⟨fun hbytes => h (hiff.mp hbytes), Outcome.ok.inj heq⟩

/-- The nodes 0 and 2, in two orders and with a comment. -/
theorem digest_identifies_two_texts :
    ∃ bytes bytes', DigestSpec .debug ⟨[0, 2]⟩ ⟨[0, 2]⟩ bytes bytes' := by
  have hread : read (encodeUtf8 "c two nodes\n2\n 3\n1\n".toList) none = .ok ⟨[0, 2]⟩ :=
    read_eq_ok_iff.mpr ⟨[2, 0], by decide, by decide, by simp, by decide, by decide, by decide⟩
  have hread' : read (encodeUtf8 "2\n\n1\n3".toList) (some 3) = .ok ⟨[0, 2]⟩ :=
    read_eq_ok_iff.mpr ⟨[0, 2], by decide, by decide, by simp, by decide, by decide, by decide⟩
  exact digest_identifies hread hread' .debug

end StrideRunner.Pace.Solution
