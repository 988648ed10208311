import FrostTools.Signing.Roles

namespace FrostTools.Signing.Http
open Api Client Frostd Setup

inductive Standing where
  | absent
  | joined
  | committed
  | informed
  | shared
  deriving DecidableEq

namespace Standing

def sent : Standing → ℕ
  | absent => 0
  | joined => 0
  | committed => 1
  | informed => 1
  | shared => 2

def takesPart : Standing → Bool
  | absent => false
  | shared => false
  | _ => true

def hasPackages : Standing → Bool
  | informed => true
  | shared => true
  | _ => false

end Standing

variable {C : Ciphersuite} {D : Setup C} {S : Snow} {verify : Verifier}

/-- The record in a round, in which the messages of the signers `got` were received, while the
packages are not yet sent to the signers `unsent`. -/
structure Gathers (X : Script D S verify) (round : ℕ) (got unsent : List D.Signer)
    (standing : D.Signer → Standing) (session : Session) : Prop where
  metadata : session.metadata = (D.lib.signersKeys D.signers, D.coordinator, UInt8.ofNat D.numMessages)
  pace : ∀ p, (standing p).sent = round ∨ (standing p).sent = round + 1
  queue : ∃ queue : List D.Signer, session.messages .coordinator = queue.map (X.letter round) ∧
    (got ++ queue).Nodup ∧ ∀ p, p ∈ got ++ queue ↔ (standing p).sent = round + 1
  packages : ∀ p, session.messages (.participant p.1) =
    if p ∈ unsent ∨ (standing p).hasPackages = true then []
    else [⟨D.coordinator, (X.down p).sent 0⟩]
  waiting : unsent.Nodup ∧ ∀ p ∈ unsent, (standing p).hasPackages = false
  first : round = 0 → ∀ p, p ∈ unsent

namespace Gathers

variable {X : Script D S verify} {round : ℕ} {got unsent : List D.Signer}
  {standing : D.Signer → Standing} {session : Session}

theorem pubkeys (h : Gathers X round got unsent standing session) :
    session.pubkeys = D.lib.signersKeys D.signers ∧ session.coordinatorPubkey = D.coordinator ∧
      session.messageCount = UInt8.ofNat D.numMessages := by
  have hmetadata := h.metadata
  rw [Session.metadata, Prod.mk.injEq, Prod.mk.injEq] at hmetadata
  exact hmetadata

theorem member_coordinator (h : Gathers X round got unsent standing session) :
    session.Member D.coordinator := .inr h.pubkeys.2.1

theorem member_signer (h : Gathers X round got unsent standing session) (hlawful : D.Lawful)
    (p : D.Signer) : session.Member p :=
  .inl (by rw [h.pubkeys.1]; exact (hlawful.signersKeys.2 p).mpr p.2)

theorem canSend_packages (h : Gathers X round got unsent standing session) (hlawful : D.Lawful)
    (p : D.Signer) {user : User} (huser : user.pubkey = D.coordinator) (sid : Uuid) (msg : Bytes) :
    canSend session user ⟨sid, [p.1], msg⟩ = true := by
  have hmember := h.member_coordinator
  have hp : p.1 ∈ session.pubkeys := by
    rw [h.pubkeys.1]
    exact (hlawful.signersKeys.2 p).mpr p.2
  simp [canSend, recipients, huser, hmember, hp]

theorem canSend_message (h : Gathers X round got unsent standing session) (hlawful : D.Lawful)
    (p : D.Signer) {user : User} (huser : user.pubkey = p.1) (sid : Uuid) (msg : Bytes) :
    canSend session user ⟨sid, [], msg⟩ = true := by
  have hmember := h.member_signer hlawful p
  simp [canSend, recipients, huser, hmember]

theorem resolve_coordinator (h : Gathers X round got unsent standing session) :
    resolve session D.coordinator true = .coordinator :=
  if_pos ⟨h.pubkeys.2.1.symm, rfl⟩

theorem resolve_signer (p : D.Signer) : resolve session p false = .participant p :=
  if_neg fun h => Bool.false_ne_true h.2

theorem round_eq_one (h : Gathers X round got unsent standing session) {p : D.Signer}
    (hp : standing p = .informed) : round = 1 := by
  have hpace := h.pace p
  rw [hp] at hpace
  rcases hpace with hsent | hsent
  · exact hsent.symm
  · obtain rfl : round = 0 := Nat.succ_injective hsent.symm
    have hwaits := h.waiting.2 p (h.first rfl p)
    rw [hp] at hwaits
    cases hwaits

theorem congr (h : Gathers X round got unsent standing session) {standing' : D.Signer → Standing}
    (hsent : ∀ p, (standing' p).sent = (standing p).sent)
    (hpackages : ∀ p, (standing' p).hasPackages = (standing p).hasPackages) :
    Gathers X round got unsent standing' session := by
  obtain ⟨queue, hqueue, hnodup, hmem⟩ := h.queue
  refine ⟨h.metadata, fun p => ?_, ⟨queue, hqueue, hnodup, fun p => ?_⟩, fun p => ?_,
    ⟨h.waiting.1, fun p hp => ?_⟩, h.first⟩
  · rw [hsent]
    exact h.pace p
  · rw [hsent]
    exact hmem p
  · rw [hpackages]
    exact h.packages p
  · rw [hpackages]
    exact h.waiting.2 p hp

theorem join (h : Gathers X round got unsent standing session) {p : D.Signer}
    (hp : standing p = .absent) :
    Gathers X round got unsent (Function.update standing p .joined) session := by
  refine h.congr (fun q => ?_) fun q => ?_
  all_goals
    by_cases hq : q = p
    · rw [hq, Function.update_self, hp]
      rfl
    · rw [Function.update_of_ne hq]

theorem send (h : Gathers X round got unsent standing session) {p : D.Signer} {t sid : Uuid}
    {next : Standing} (hsent : (standing p).sent = round) (hnext : next.sent = round + 1)
    (hpackages : next.hasPackages = (standing p).hasPackages) :
    Gathers X round got unsent (Function.update standing p next)
      (enqueue ⟨p, t⟩ ⟨sid, [], (X.up p).sent round⟩ session) := by
  obtain ⟨queue, hqueue, hnodup, hmem⟩ := h.queue
  have hkeeps : ∀ q, (Function.update standing p next q).hasPackages = (standing q).hasPackages := by
    intro q
    by_cases hq : q = p
    · rw [hq, Function.update_self, hpackages]
    · rw [Function.update_of_ne hq]
  -- whoever is behind its round was not heard in it
  have hnew : p ∉ got ++ queue := fun hp => by
    have := (hmem p).mp hp
    omega
  refine ⟨(metadata_enqueue _ _ _).trans h.metadata, fun q => ?_, ⟨queue ++ [p], ?_, ?_, fun q => ?_⟩,
    fun q => ?_, ⟨h.waiting.1, fun q hq => ?_⟩, h.first⟩
  · by_cases hq : q = p
    · rw [hq, Function.update_self]
      exact .inr hnext
    · rw [Function.update_of_ne hq]
      exact h.pace q
  · rw [messages_enqueue, hqueue, List.map_append]
    rfl
  · rw [← List.append_assoc]
    refine List.Nodup.append hnodup (List.nodup_singleton p) fun q hq hqp => ?_
    rw [List.mem_singleton.mp hqp] at hq
    exact hnew hq
  · rw [← List.append_assoc, List.mem_append, List.mem_singleton]
    by_cases hq : q = p
    · rw [hq, Function.update_self]
      exact iff_of_true (.inr rfl) hnext
    · rw [Function.update_of_ne hq, hmem q]
      exact or_iff_left hq
  · rw [messages_enqueue, hkeeps, h.packages q]
    exact List.append_nil _
  · rw [hkeeps]
    exact h.waiting.2 q hq

theorem take (h : Gathers X round got unsent standing session) {p : D.Signer}
    (hp : standing p = .committed) :
    (session.messages (.participant p.1) = [] ∧
      Gathers X round got unsent standing (session.drain (.participant p.1)).2) ∨
    (session.messages (.participant p.1) = [⟨D.coordinator, (X.down p).sent 0⟩] ∧
      Gathers X round got unsent (Function.update standing p .informed)
        (session.drain (.participant p.1)).2) := by
  have hmessages := h.packages p
  rw [hp] at hmessages
  have hqueue : (session.drain (.participant p.1)).2.messages .coordinator =
      session.messages .coordinator :=
    (Session.messages_drain _ _ _).trans (if_neg nofun)
  have hdrained : ∀ q : D.Signer, (session.drain (.participant p.1)).2.messages (.participant q.1) =
      if q = p then [] else session.messages (.participant q.1) := by
    intro q
    rw [Session.messages_drain]
    exact if_congr (by rw [SessionParticipant.participant.injEq, Subtype.coe_inj]) rfl rfl
  -- the packages are in the queue as soon as they were sent, and only until they are taken
  by_cases hunsent : p ∈ unsent
  · rw [if_pos (.inl hunsent)] at hmessages
    refine .inl ⟨hmessages, (Session.metadata_drain _ _).trans h.metadata, h.pace, ?_, fun q => ?_,
      h.waiting, h.first⟩
    · rw [hqueue]
      exact h.queue
    · rw [hdrained, ← h.packages q]
      split_ifs with hq
      · rw [hq, hmessages]
      · rfl
  · rw [if_neg (by simp [hunsent, Standing.hasPackages])] at hmessages
    have hsent : ∀ q, (Function.update standing p .informed q).sent = (standing q).sent := by
      intro q
      by_cases hq : q = p
      · rw [hq, Function.update_self, hp]
        rfl
      · rw [Function.update_of_ne hq]
    refine .inr ⟨hmessages, (Session.metadata_drain _ _).trans h.metadata, fun q => ?_, ?_,
      fun q => ?_, ⟨h.waiting.1, fun q hq => ?_⟩, h.first⟩
    · rw [hsent]
      exact h.pace q
    · rw [hqueue]
      obtain ⟨queue, hmap, hnodup, hmem⟩ := h.queue
      exact ⟨queue, hmap, hnodup, fun q => by rw [hsent]; exact hmem q⟩
    · rw [hdrained]
      by_cases hq : q = p
      · rw [if_pos hq, hq, Function.update_self, if_pos (.inr rfl)]
      · rw [if_neg hq, Function.update_of_ne hq]
        exact h.packages q
    · rw [Function.update_of_ne (by rintro rfl; exact hunsent hq)]
      exact h.waiting.2 q hq

theorem sendPackages {p : D.Signer} {left : List D.Signer}
    (h : Gathers X round got (p :: left) standing session) (hround : round ≠ 0) (t sid : Uuid) :
    Gathers X round got left standing
      (enqueue ⟨D.coordinator, t⟩ ⟨sid, [p.1], (X.down p).sent 0⟩ session) := by
  obtain ⟨hnew, hnodup⟩ := List.nodup_cons.mp h.waiting.1
  have hwaits := h.waiting.2 p List.mem_cons_self
  refine ⟨(metadata_enqueue _ _ _).trans h.metadata, h.pace, ?_, fun q => ?_,
    ⟨hnodup, fun q hq => h.waiting.2 q (List.mem_cons_of_mem p hq)⟩, fun h0 => absurd h0 hround⟩
  · rw [messages_enqueue]
    simpa [copies] using h.queue
  · rw [messages_enqueue, h.packages q]
    by_cases hq : q = p
    · subst hq
      simp [copies, hnew, hwaits]
    · have hcopies : copies (.participant q.1) ⟨sid, [p.1], (X.down p).sent 0⟩ = 0 := by
        simp only [copies, List.count_singleton, beq_iff_eq]
        exact if_neg fun heq => hq (Subtype.ext heq.symm)
      rw [hcopies, List.replicate_zero, List.append_nil]
      simp only [List.mem_cons, hq, false_or]

theorem receive (h : Gathers X round got unsent standing session) :
    ∃ queue : List D.Signer, session.messages .coordinator = queue.map (X.letter round) ∧
      (got ++ queue).Nodup ∧
      Gathers X round (got ++ queue) unsent standing (session.drain .coordinator).2 := by
  obtain ⟨queue, hqueue, hnodup, hmem⟩ := h.queue
  refine ⟨queue, hqueue, hnodup, (Session.metadata_drain _ _).trans h.metadata, h.pace,
    ⟨[], ?_, ?_, ?_⟩, fun p => ?_, h.waiting, h.first⟩
  · exact (Session.messages_drain _ _ _).trans (if_pos rfl)
  · rwa [List.append_nil]
  · rwa [List.append_nil]
  · rw [Session.messages_drain, if_neg nofun]
    exact h.packages p

theorem advance (h : Gathers X round got unsent standing session) (hgot : ∀ p, p ∈ got) :
    Gathers X (round + 1) [] unsent standing session := by
  obtain ⟨queue, hqueue, hnodup, hmem⟩ := h.queue
  have hsent : ∀ p, (standing p).sent = round + 1 := fun p =>
    (hmem p).mp (List.mem_append_left queue (hgot p))
  obtain rfl : queue = [] := List.eq_nil_iff_forall_not_mem.mpr fun p hp =>
    (List.nodup_append.mp hnodup).2.2 p (hgot p) p hp rfl
  refine ⟨h.metadata, fun p => .inl (hsent p), ⟨[], hqueue, List.nodup_nil, fun p => ?_⟩,
    h.packages, h.waiting, fun h0 => absurd h0 (Nat.succ_ne_zero round)⟩
  rw [hsent]
  exact iff_of_false List.not_mem_nil (by omega)

end Gathers

theorem gathers_new (X : Script D S verify) (hlawful : D.Lawful) {standing : D.Signer → Standing}
    (hstanding : ∀ p, standing p = .absent) :
    Gathers X 0 [] X.order standing
      ⟨D.lib.signersKeys D.signers, D.coordinator, UInt8.ofNat D.numMessages, ∅⟩ := by
  refine ⟨rfl, fun p => .inl ?_, ⟨[], rfl, List.nodup_nil, fun p => ?_⟩, fun p => ?_,
    ⟨X.nodup_order hlawful, fun p _ => ?_⟩, fun _ => X.mem_order hlawful⟩
  · rw [hstanding]
    rfl
  · rw [hstanding]
    exact iff_of_false List.not_mem_nil (by decide)
  · rw [if_pos (.inl (X.mem_order hlawful p))]
    rfl
  · rw [hstanding]
    rfl

end FrostTools.Signing.Http
