import FrostTools.Session.Confluence

/-!
# Retried messages of a coordinator's session

A retry is harmless in the phase its message belongs to: the same list is stored again.
After the commitments are complete, the retry of a list of commitments is read as a list
of signature shares.
-/

namespace FrostTools.Session

variable {I : Type*} [DecidableEq I] {pubkeys : Map PublicKey I} {signers : Finset I}
  {msgs l : List Msg} {z : Msg}

section Waiting

variable {V : Type*} {decode : Bytes → Option V}

theorem keys_received_subset (hvalid : ∀ msg ∈ l, ∃ identifier ∈ signers, ∃ v,
    pubkeys.lookup msg.sender = some identifier ∧ decode msg.msg = some v) :
    (Map.ofList (received pubkeys decode l)).keys ⊆ signers := by
  intro identifier hmem
  obtain ⟨v, hv⟩ := Map.mem_keys_iff.mp hmem
  obtain ⟨msg, hmsg, hp, -⟩ := mem_received.mp (Map.mem_of_lookup_ofList hv)
  obtain ⟨identifier', hsigner, _, hp', -⟩ := hvalid msg hmsg
  obtain rfl := Option.some.inj (hp.symm.trans hp')
  exact hsigner

theorem keys_received_ne (hz : ∃ identifier ∈ signers, pubkeys.lookup z.sender = some identifier)
    (hl : ∀ msg ∈ l, pubkeys.lookup msg.sender ≠ pubkeys.lookup z.sender) :
    (Map.ofList (received pubkeys decode l)).keys ≠ signers := by
  obtain ⟨identifier, hmem, hp⟩ := hz
  rintro rfl
  obtain ⟨v, hv⟩ := Map.mem_keys_iff.mp hmem
  obtain ⟨msg, hmsg, hp', -⟩ := mem_received.mp (Map.mem_of_lookup_ofList hv)
  exact hl msg hmsg (hp'.trans hp.symm)

/-- Messages of some participants, in any order and any number of times, are stored as
long as one participant is missing. -/
theorem deliver_waiting {σ : Type*} {recv : σ → Msg → Outcome Error Unit × σ} (wait : Map I V → σ)
    (hrecv : ∀ m msg identifier v, pubkeys.lookup msg.sender = some identifier →
      decode msg.msg = some v → identifier ∈ signers → (m.insert identifier v).keys ⊆ signers →
      (m.insert identifier v).keys ≠ signers →
      recv (wait m) msg = (.ok (), wait (m.insert identifier v)))
    (hvalid : ∀ msg ∈ l, ∃ identifier ∈ signers, ∃ v,
      pubkeys.lookup msg.sender = some identifier ∧ decode msg.msg = some v)
    (hz : ∃ identifier ∈ signers, pubkeys.lookup z.sender = some identifier)
    (hl : ∀ msg ∈ l, pubkeys.lookup msg.sender ≠ pubkeys.lookup z.sender) :
    deliver recv (wait ∅) l = some (wait (.ofList (received pubkeys decode l))) := by
  induction l using List.reverseRecOn with
  | nil => rfl
  | append_singleton l msg ih =>
    obtain ⟨identifier, hsigner, v, hp, hv⟩ := hvalid msg (by simp)
    have hsub := keys_received_subset hvalid
    have hne : (Map.ofList (received pubkeys decode (l ++ [msg]))).keys ≠ signers :=
      keys_received_ne hz hl
    have hfirst := ih (fun m hm => hvalid m (List.mem_append_left _ hm))
      fun m hm => hl m (List.mem_append_left _ hm)
    rw [received_snoc hp hv, Map.ofList_append_singleton] at hsub hne ⊢
    exact deliver_snoc_of_ok hfirst (hrecv _ msg identifier v hp hv hsigner hsub hne)

omit [DecidableEq I] in
theorem Complete.lookup_ne_last (h : Complete pubkeys decode signers (msgs ++ [z])) {msg : Msg} (hmem : msg ∈ msgs) :
    pubkeys.lookup msg.sender ≠ pubkeys.lookup z.sender := by
  have hnodup := h.distinct
  rw [List.map_append, List.nodup_append] at hnodup
  exact hnodup.2.2 _ (List.mem_map_of_mem hmem) _ (List.mem_map_of_mem (List.mem_singleton_self z))

end Waiting

namespace CoordinatorSessionState

variable {C S : Type*} {decode : CoordinatorDecoder C S} {args : CoordinatorSessionStateArgs}
  {commitments : Map I (List C)} {c : Msg} {st : CoordinatorSessionState I C S}

theorem deliver_commitments (hsigners : signers.card = args.numSigners)
    (h : Complete pubkeys (listOf args.numMessages decode.commitments) signers (msgs ++ [c]))
    (hl : ∀ msg, msg ∈ l ↔ msg ∈ msgs) :
    deliver (recv decode) (.waitingForCommitments args ∅ pubkeys) (l ++ [c]) =
      some (.waitingForSignatureShares args
        (.ofList (received pubkeys (listOf args.numMessages decode.commitments) (msgs ++ [c])))
        pubkeys ∅) := by
  have hlast : ∃ identifier ∈ signers, ∃ v, pubkeys.lookup c.sender = some identifier ∧
      listOf args.numMessages decode.commitments c.msg = some v := h.valid c (by simp)
  obtain ⟨identifier, hsigner, v, hp, hv⟩ := hlast
  have hfirst : deliver (recv decode) (.waitingForCommitments args ∅ pubkeys) l =
      some (.waitingForCommitments args
        (.ofList (received pubkeys (listOf args.numMessages decode.commitments) l)) pubkeys) :=
    deliver_waiting (fun m => CoordinatorSessionState.waitingForCommitments args m pubkeys)
    (fun m msg identifier v hp hv _ hsub hne => by
      rw [recv_commitments hsigners hp hv hsub, if_neg hne])
    (fun msg hmem => h.valid msg (List.mem_append_left _ ((hl msg).mp hmem)))
    ⟨identifier, hsigner, hp⟩ (fun msg hmem => h.lookup_ne_last ((hl msg).mp hmem))
  have hsame : Map.ofList (received pubkeys (listOf args.numMessages decode.commitments)
        (msgs ++ [c])) =
      Map.ofList (received pubkeys (listOf args.numMessages decode.commitments) (l ++ [c])) := by
    refine Map.ofList_congr (fun _ _ _ => h.unique) fun ⟨identifier, v⟩ => ?_
    simp only [mem_received, List.mem_append, hl]
  have hkeys := h.keys_eq
  rw [hsame, received_snoc hp hv, Map.ofList_append_singleton] at hkeys ⊢
  have hrecv := recv_commitments hsigners hp hv hkeys.subset
  rw [if_pos hkeys] at hrecv
  exact deliver_snoc_of_ok hfirst hrecv

theorem deliver_signatureShares (hsigners : commitments.keys = signers)
    (h : Complete pubkeys (listOf args.numMessages decode.signatureShares) signers (msgs ++ [z]))
    (hl : ∀ msg ∈ l, ∃ identifier ∈ signers, ∃ v, pubkeys.lookup msg.sender = some identifier ∧
      listOf args.numMessages decode.signatureShares msg.msg = some v ∧
      (identifier, v) ∈
        received pubkeys (listOf args.numMessages decode.signatureShares) (msgs ++ [z]))
    (hsub : msgs ⊆ l) (hlast : ∀ msg ∈ l, pubkeys.lookup msg.sender ≠ pubkeys.lookup z.sender) :
    deliver (recv decode) (.waitingForSignatureShares args commitments pubkeys ∅) (l ++ [z]) =
      some (.signatureSharesReady args
        (.ofList (received pubkeys (listOf args.numMessages decode.signatureShares)
          (msgs ++ [z])))) := by
  obtain ⟨identifier, hsigner, v, hp, hv⟩ := h.valid z (by simp)
  have hfirst : deliver (recv decode) (.waitingForSignatureShares args commitments pubkeys ∅) l =
      some (.waitingForSignatureShares args commitments pubkeys
        (.ofList (received pubkeys (listOf args.numMessages decode.signatureShares) l))) :=
    deliver_waiting
    (fun m => CoordinatorSessionState.waitingForSignatureShares args commitments pubkeys m)
    (fun m msg identifier v hp hv hmem _ hne => by
      rw [recv_signatureShare hp hv (hsigners ▸ hmem), if_neg (hsigners ▸ hne)])
    (fun msg hmem => by
      obtain ⟨identifier, hsigner, v, hp, hv, -⟩ := hl msg hmem
      exact ⟨identifier, hsigner, v, hp, hv⟩)
    ⟨identifier, hsigner, hp⟩ hlast
  -- with the retries the map is the same, as each signer has one list
  have hsame : Map.ofList (received pubkeys (listOf args.numMessages decode.signatureShares)
        (msgs ++ [z])) =
      Map.ofList (received pubkeys (listOf args.numMessages decode.signatureShares) (l ++ [z])) := by
    refine Map.ofList_congr (fun _ _ _ => h.unique) fun ⟨identifier, v⟩ => ?_
    constructor
    · intro hmem
      obtain ⟨msg, hmsg, hrest⟩ := mem_received.mp hmem
      refine mem_received.mpr ⟨msg, ?_, hrest⟩
      obtain hmsg | hmsg := List.mem_append.mp hmsg
      · exact List.mem_append_left _ (hsub hmsg)
      · exact List.mem_append_right _ hmsg
    · intro hmem
      obtain ⟨msg, hmsg, hp', hv'⟩ := mem_received.mp hmem
      obtain hmsg | hmsg := List.mem_append.mp hmsg
      · obtain ⟨_, -, _, hp'', hv'', hmem'⟩ := hl msg hmsg
        obtain rfl := Option.some.inj (hp'.symm.trans hp'')
        obtain rfl := Option.some.inj (hv'.symm.trans hv'')
        exact hmem'
      · exact mem_received.mpr ⟨msg, List.mem_append_right _ hmsg, hp', hv'⟩
  have hkeys := h.keys_eq
  rw [hsame, received_snoc hp hv, Map.ofList_append_singleton] at hkeys ⊢
  apply deliver_snoc_of_ok hfirst
  rw [recv_signatureShare hp hv (hsigners ▸ hsigner), hsigners, if_pos hkeys]

theorem deliver_phase_le {st' : CoordinatorSessionState I C S}
    (h : deliver (recv decode) st l = some st') : st.phase ≤ st'.phase := by
  induction l using List.reverseRecOn generalizing st' with
  | nil =>
    obtain rfl := Option.some.inj h
    exact le_rfl
  | append_singleton l msg ih =>
    obtain ⟨st₁, h₁, hmsg⟩ := deliver_snoc_eq_some_iff.mp h
    have hrecv : Recv decode msg st₁ (.ok ()) st' := by
      have hspec := recv_spec decode msg st₁
      rwa [hmsg] at hspec
    exact (ih h₁).trans hrecv.phase_le

/-- Messages accepted without leaving the phase are lists of shares, stored with their
senders. -/
theorem stored_of_deliver
    (hst : deliver (recv decode) (.waitingForSignatureShares args commitments pubkeys ∅) l =
      some st) (hphase : st.phase = 1) (hne : commitments.keys.Nonempty) :
    ∃ m, st = .waitingForSignatureShares args commitments pubkeys m ∧
      m.keys ⊆ commitments.keys ∧ m.keys ≠ commitments.keys ∧
      ∀ msg ∈ l, (listOf args.numMessages decode.signatureShares msg.msg).isSome ∧
        ∃ identifier ∈ m.keys, pubkeys.lookup msg.sender = some identifier := by
  induction l using List.reverseRecOn generalizing st with
  | nil =>
    obtain rfl := Option.some.inj hst
    refine ⟨∅, rfl, by simp, ?_, fun msg hmem => absurd hmem List.not_mem_nil⟩
    rw [Map.keys_empty]
    exact hne.ne_empty.symm
  | append_singleton l msg ih =>
    obtain ⟨st₁, h₁, hmsg⟩ := deliver_snoc_eq_some_iff.mp hst
    have hrecv : Recv decode msg st₁ (.ok ()) st := by
      have hspec := recv_spec decode msg st₁
      rwa [hmsg] at hspec
    have hge : 1 ≤ st₁.phase := deliver_phase_le h₁
    have hle := hrecv.phase_le
    obtain ⟨m, rfl, hsub, -, hall⟩ := ih h₁ (by omega)
    cases hrecv with
    | signatureShares _ _ _ _ identifier v hd hlen hp hmem =>
      split_ifs at hphase ⊢ with hfull
      · simp [phase] at hphase
      · refine ⟨m.insert identifier v, rfl, ?_, hfull, ?_⟩
        · rw [Map.keys_insert]
          exact Finset.insert_subset hmem hsub
        · intro msg' hmem'
          rw [Map.keys_insert]
          obtain hold | hlast := List.mem_append.mp hmem'
          · obtain ⟨hlist, identifier', hkey, hp'⟩ := hall msg' hold
            exact ⟨hlist, identifier', Finset.mem_insert_of_mem hkey, hp'⟩
          · obtain rfl := List.mem_singleton.mp hlast
            refine ⟨?_, identifier, Finset.mem_insert_self _ _, hp⟩
            rw [listOf_eq_some_iff.mpr ⟨hd, hlen⟩]
            rfl

/-- The two messages of each signer with the last of each kind, `c` and `z`, set apart. In
`early ++ [c] ++ late ++ [z]` all messages arrive in this order of phases, and any that
was accepted may arrive again before `z` completes the session. -/
structure Retried (decode : CoordinatorDecoder C S) (n : ℕ) (pubkeys : Map PublicKey I)
    (signers : Finset I) (cs : List Msg) (c : Msg) (ss : List Msg) (z : Msg)
    (early late : List Msg) : Prop where
  commitments : Complete pubkeys (listOf n decode.commitments) signers (cs ++ [c])
  signatureShares : Complete pubkeys (listOf n decode.signatureShares) signers (ss ++ [z])
  early_iff : ∀ msg, msg ∈ early ↔ msg ∈ cs
  subset_late : ss ⊆ late
  late_subset : late ⊆ cs ++ [c] ++ ss

/-- No list of commitments arrives again after the commitments are complete. A list that
is a list of shares as well does no harm, except instead of the last one. -/
def NoLateCommitments (decode : CoordinatorDecoder C S) (n : ℕ) (pubkeys : Map PublicKey I)
    (cs : List Msg) (c z : Msg) (late : List Msg) : Prop :=
  ∀ msg ∈ late, msg ∈ cs ++ [c] → (listOf n decode.signatureShares msg.msg).isSome ∧
    pubkeys.lookup msg.sender ≠ pubkeys.lookup z.sender

section Retried

variable {n : ℕ} {cs ss early late : List Msg}

omit [DecidableEq I] in
/-- A list of commitments that is also a list of shares is empty, as are all the shares. -/
theorem Retried.entry_of_late (h : Retried decode n pubkeys signers cs c ss z early late)
    (hdecode : ∀ b l l', decode.commitments b = some l → decode.signatureShares b = some l' →
      l = [])
    (hno : NoLateCommitments decode n pubkeys cs c z late) {msg : Msg} (hmem : msg ∈ late) :
    ∃ identifier ∈ signers, ∃ v, pubkeys.lookup msg.sender = some identifier ∧
      listOf n decode.signatureShares msg.msg = some v ∧
      (identifier, v) ∈ received pubkeys (listOf n decode.signatureShares) (ss ++ [z]) := by
  obtain hcommitments | hshare := List.mem_append.mp (h.late_subset hmem)
  · obtain ⟨v, hv⟩ := Option.isSome_iff_exists.mp (hno msg hmem hcommitments).1
    obtain ⟨identifier, hsigner, l, hp, hl⟩ := h.commitments.valid msg hcommitments
    obtain ⟨hd, hlen⟩ := listOf_eq_some_iff.mp hl
    obtain ⟨hd', hlen'⟩ := listOf_eq_some_iff.mp hv
    obtain rfl := hdecode msg.msg l v hd hd'
    -- there is nothing to sign, so every list is empty
    obtain rfl : n = 0 := hlen.symm
    obtain rfl := List.length_eq_zero_iff.mp hlen'
    obtain ⟨msg', hmem', hp'⟩ := h.signatureShares.complete identifier hsigner
    obtain ⟨_, -, v', -, hv'⟩ := h.signatureShares.valid msg' hmem'
    obtain rfl := List.length_eq_zero_iff.mp (listOf_eq_some_iff.mp hv').2
    exact ⟨identifier, hsigner, [], hp, hv, mem_received.mpr ⟨msg', hmem', hp', hv'⟩⟩
  · have hmem' : msg ∈ ss ++ [z] := List.mem_append_left _ hshare
    obtain ⟨identifier, hsigner, v, hp, hv⟩ := h.signatureShares.valid msg hmem'
    exact ⟨identifier, hsigner, v, hp, hv, mem_received.mpr ⟨msg, hmem', hp, hv⟩⟩

omit [DecidableEq I] in
theorem Retried.lookup_ne_last (h : Retried decode n pubkeys signers cs c ss z early late)
    (hno : NoLateCommitments decode n pubkeys cs c z late) {msg : Msg} (hmem : msg ∈ late) :
    pubkeys.lookup msg.sender ≠ pubkeys.lookup z.sender := by
  obtain hcommitments | hshare := List.mem_append.mp (h.late_subset hmem)
  · exact (hno msg hmem hcommitments).2
  · exact h.signatureShares.lookup_ne_last hshare

/-- Before the last list of shares, everything accepted is a list of shares of others. -/
theorem Retried.noLateCommitments (h : Retried decode n pubkeys signers cs c ss z early late)
    (hargs : args.numMessages = n) (hsigners : commitments.keys = signers)
    {final : CoordinatorSessionState I C S}
    (hfinal : deliver (recv decode) (.waitingForSignatureShares args commitments pubkeys ∅)
      (late ++ [z]) = some final) : NoLateCommitments decode n pubkeys cs c z late := by
  subst hargs
  obtain ⟨identifier, hsigner, -, hp, -⟩ := h.signatureShares.valid z (by simp)
  have hnonempty : commitments.keys.Nonempty := ⟨identifier, hsigners ▸ hsigner⟩
  obtain ⟨st, hst, hz⟩ := deliver_snoc_eq_some_iff.mp hfinal
  have hphase : st.phase = 1 := by
    have hge : 1 ≤ st.phase := deliver_phase_le hst
    cases st with
    | waitingForCommitments _ _ _ => simp [phase] at hge
    | waitingForSignatureShares _ _ _ _ => rfl
    | signatureSharesReady _ _ => cases hz
  obtain ⟨m, rfl, hsub, hne, hall⟩ := stored_of_deliver hst hphase hnonempty
  intro msg hmem _
  refine ⟨(hall msg hmem).1, fun heq => hne (hsub.antisymm ?_)⟩
  intro identifier' hmem'
  rw [hsigners] at hmem'
  obtain ⟨msg', hmsg', hp'⟩ := h.signatureShares.complete identifier' hmem'
  obtain hshare | hlast := List.mem_append.mp hmsg'
  · obtain ⟨-, identifier'', hkey, hp''⟩ := hall msg' (h.subset_late hshare)
    obtain rfl := Option.some.inj (hp'.symm.trans hp'')
    exact hkey
  · obtain rfl := List.mem_singleton.mp hlast
    obtain ⟨-, identifier'', hkey, hp''⟩ := hall msg hmem
    obtain rfl := Option.some.inj (hp'.symm.trans (heq.symm.trans hp''))
    exact hkey

/-- Retries are all accepted and change nothing exactly when no list of commitments
arrives again after the commitments are complete. -/
theorem retries_harmless_iff
    (hdecode : ∀ b l l', decode.commitments b = some l → decode.signatureShares b = some l' →
      l = [])
    (h : Retried decode n pubkeys signers cs c ss z early late) :
    ∃ final : CoordinatorSessionState I C S,
      deliver (recv decode) (.new n signers.card pubkeys) (cs ++ [c] ++ (ss ++ [z])) = some final ∧
      (deliver (recv decode) (.new n signers.card pubkeys) (early ++ [c] ++ (late ++ [z])) =
          some final ↔ NoLateCommitments decode n pubkeys cs c z late) := by
  have hkeys : (Map.ofList (received pubkeys (listOf n decode.commitments) (cs ++ [c]))).keys =
      signers := h.commitments.keys_eq
  have hcommitments : ∀ l : List Msg, (∀ msg, msg ∈ l ↔ msg ∈ cs) →
      deliver (recv decode) (.new n signers.card pubkeys) (l ++ [c]) =
        some (.waitingForSignatureShares ⟨n, signers.card⟩
          (.ofList (received pubkeys (listOf n decode.commitments) (cs ++ [c]))) pubkeys ∅) :=
    fun l hl => deliver_commitments rfl h.commitments hl
  have hshares : ∀ l : List Msg, NoLateCommitments decode n pubkeys cs c z l →
      ss ⊆ l → l ⊆ cs ++ [c] ++ ss → deliver (recv decode)
        (.waitingForSignatureShares ⟨n, signers.card⟩
          (.ofList (received pubkeys (listOf n decode.commitments) (cs ++ [c]))) pubkeys ∅)
        (l ++ [z]) =
      some (.signatureSharesReady ⟨n, signers.card⟩
        (.ofList (received pubkeys (listOf n decode.signatureShares) (ss ++ [z])))) := by
    intro l hno hsub hsub'
    have hl : Retried decode n pubkeys signers cs c ss z early l :=
      ⟨h.commitments, h.signatureShares, h.early_iff, hsub, hsub'⟩
    exact deliver_signatureShares hkeys h.signatureShares
      (fun msg hmem => hl.entry_of_late hdecode hno hmem) hsub
      (fun msg hmem => hl.lookup_ne_last hno hmem)
  -- without retries, nothing that arrives late is a list of commitments
  have hfirst : NoLateCommitments decode n pubkeys cs c z ss := by
    intro msg hmem _
    obtain ⟨_, -, v, -, hv⟩ := h.signatureShares.valid msg (List.mem_append_left _ hmem)
    exact ⟨Option.isSome_iff_exists.mpr ⟨v, hv⟩, h.signatureShares.lookup_ne_last hmem⟩
  refine ⟨.signatureSharesReady ⟨n, signers.card⟩
    (.ofList (received pubkeys (listOf n decode.signatureShares) (ss ++ [z]))), ?_, ?_⟩
  · rw [deliver_append, hcommitments cs fun _ => Iff.rfl]
    exact hshares ss hfirst (List.Subset.refl _) (List.subset_append_right _ _)
  · rw [deliver_append, hcommitments early h.early_iff]
    constructor
    · intro hfinal
      exact h.noLateCommitments rfl hkeys hfinal
    · intro hno
      exact hshares late hno h.subset_late h.late_subset

end Retried

/-- Commitments are bytes below 128, and shares the others. -/
def splitDecoder : CoordinatorDecoder UInt8 UInt8 where
  commitments b := if b.all (· < 128) then some b else none
  signatureShares b := if b.all (128 ≤ ·) then some b else none

theorem splitDecoder_disjoint : ∀ b l l', splitDecoder.commitments b = some l →
    splitDecoder.signatureShares b = some l' → l = [] := by
  intro b l l' hl hl'
  simp only [splitDecoder, Option.ite_none_right_eq_some, Option.some.injEq] at hl hl'
  obtain ⟨hlow, rfl⟩ := hl
  obtain ⟨hhigh, -⟩ := hl'
  cases b with
  | nil => rfl
  | cons x b =>
    simp only [List.all_cons, Bool.and_eq_true, decide_eq_true_eq] at hlow hhigh
    exact absurd hlow.1 (UInt8.not_lt.mpr hhigh.1)

def twoSigners : Map PublicKey ℕ := .ofList [(⟨[1]⟩, 1), (⟨[2]⟩, 2)]

theorem retried_sample : Retried splitDecoder 1 twoSigners {1, 2} [⟨⟨[1]⟩, [5]⟩] ⟨⟨[2]⟩, [6]⟩
    [⟨⟨[1]⟩, [200]⟩] ⟨⟨[2]⟩, [201]⟩ [⟨⟨[1]⟩, [5]⟩, ⟨⟨[1]⟩, [5]⟩]
    [⟨⟨[1]⟩, [200]⟩, ⟨⟨[1]⟩, [200]⟩] where
  commitments := by
    refine ⟨?_, by decide, by decide⟩
    intro msg hmem
    rcases List.mem_pair.mp hmem with rfl | rfl
    · exact ⟨1, by decide, [5], by decide, by decide⟩
    · exact ⟨2, by decide, [6], by decide, by decide⟩
  signatureShares := by
    refine ⟨?_, by decide, by decide⟩
    intro msg hmem
    rcases List.mem_pair.mp hmem with rfl | rfl
    · exact ⟨1, by decide, [200], by decide, by decide⟩
    · exact ⟨2, by decide, [201], by decide, by decide⟩
  early_iff := by simp
  subset_late := by decide
  late_subset := by decide

theorem retries_harmless_sample : ∃ final : CoordinatorSessionState ℕ UInt8 UInt8,
    deliver (recv splitDecoder) (.new 1 2 twoSigners)
      [⟨⟨[1]⟩, [5]⟩, ⟨⟨[1]⟩, [5]⟩, ⟨⟨[2]⟩, [6]⟩, ⟨⟨[1]⟩, [200]⟩, ⟨⟨[1]⟩, [200]⟩, ⟨⟨[2]⟩, [201]⟩] =
        some final := by
  obtain ⟨final, -, hiff⟩ := retries_harmless_iff splitDecoder_disjoint retried_sample
  exact ⟨final, hiff.mpr (by unfold NoLateCommitments; decide)⟩

/-- Signer 1 retries its commitments after those of signer 2 have arrived. Without the
retry the session is completed; the retry fails. -/
theorem retry_rejected :
    (deliver (recv splitDecoder) (.new 1 2 twoSigners)
      [⟨⟨[1]⟩, [5]⟩, ⟨⟨[2]⟩, [6]⟩, ⟨⟨[1]⟩, [200]⟩, ⟨⟨[2]⟩, [201]⟩]).isSome = true ∧
    (deliver (recv splitDecoder) (.new 1 2 twoSigners) [⟨⟨[1]⟩, [5]⟩, ⟨⟨[2]⟩, [6]⟩]).map
      (fun st => (st.hasCommitments, (st.recv splitDecoder ⟨⟨[1]⟩, [5]⟩).1)) =
        some (true, .err .malformed) := by
  decide

end CoordinatorSessionState
end FrostTools.Session
