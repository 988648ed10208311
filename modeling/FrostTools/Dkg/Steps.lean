import FrostTools.Dkg.Network
import FrostTools.Frostd.Effects

/-!
# What a participant can do

Every step of a participant is one of eight kinds, and a request that fails
leaves the server as it is.
-/

namespace FrostTools.Dkg
open Client Session Frostd

variable {S : Snow} {I R1 R2 : Type*} [LinearOrder I] [DecidableEq R1] {D : Setup I R1 R2}

/-- Where a wait loop goes with a session state: round it again, or out of it. -/
inductive Follows (D : Setup I R1 R2) (self : PublicKey) (order : List PublicKey) :
    Stage → DKGSessionState I R1 R2 → Phase I R1 R2 → Prop
  | waits (stage : Stage) (st : DKGSessionState I R1 R2) : exitTest stage st = false →
    Follows D self order stage st (.exchange stage [])
  | broadcasts (pubkeys : Map PublicKey I) (r1 : Map I R1) (broadcasted : Map I (Map I R1)) :
    Follows D self order .round1 (.waitingForRound1PackagesBroadcast pubkeys r1 broadcasted)
      (.exchange .broadcast (broadcastTodo D self order r1))
  | skips (pubkeys : Map PublicKey I) (r1 : Map I R1) (r2 : Map I R2) :
    Follows D self order .round1 (.waitingForRound2Packages pubkeys r1 r2) (.round1Done r1)
  | echoed (pubkeys : Map PublicKey I) (r1 : Map I R1) (r2 : Map I R2) :
    Follows D self order .broadcast (.waitingForRound2Packages pubkeys r1 r2) (.round1Done r1)
  | ready (pubkeys : Map PublicKey I) (r2 : Map I R2) :
    Follows D self order .round2 (.round2PackagesReady pubkeys r2)
      (if self = D.creator then .closing else .loggingOut)

namespace HTTPComms

variable {c c' : HTTPComms S I R1 R2} {self : PublicKey} {order : List PublicKey} {now : ℕ}
  {app app' : AppState} {stage : Stage} {letter : Option (Letter I R1 R2)}

omit [DecidableEq R1] in
theorem afterReceive_follows (D : Setup I R1 R2) (self : PublicKey) (order : List PublicKey) (h : c.phase = .exchange stage []) :
    ∃ phase, c.afterReceive D self order stage = { c with phase } ∧
      Follows D self order stage c.state phase := by
  obtain ⟨cipher, st, phase, produced, decrypted, accepted⟩ := c
  subst h
  cases stage with
  | round1 =>
    cases st with
    | waitingForRound1Packages _ _ => exact ⟨_, rfl, .waits _ _ rfl⟩
    | waitingForRound1PackagesBroadcast pubkeys r1 broadcasted =>
      exact ⟨_, rfl, .broadcasts pubkeys r1 broadcasted⟩
    | waitingForRound2Packages pubkeys r1 r2 => exact ⟨_, rfl, .skips pubkeys r1 r2⟩
    | round2PackagesReady _ _ => exact ⟨_, rfl, .waits _ _ rfl⟩
  | broadcast =>
    cases st with
    | waitingForRound2Packages pubkeys r1 r2 => exact ⟨_, rfl, .echoed pubkeys r1 r2⟩
    | _ => exact ⟨_, rfl, .waits _ _ rfl⟩
  | round2 =>
    cases st with
    | round2PackagesReady pubkeys r2 => exact ⟨_, rfl, .ready pubkeys r2⟩
    | _ => exact ⟨_, rfl, .waits _ _ rfl⟩

theorem recvMsg_ok_iff {msg : Msg} : c.recvMsg D self msg = (.ok (), c') ↔
    ∃ plain cipher p st, c.cipher.decrypt msg = (.ok plain, cipher) ∧
      c.state.payload D.codec.decode plain.msg = some p ∧
      DKGSessionState.Accepts (D.identifier self) plain.sender p c.state st ∧
      c' = { c with
        cipher
        state := st
        decrypted := c.decrypted ++ [plain]
        accepted := c.accepted ++ [(plain.sender, p)] } := by
  unfold recvMsg
  constructor
  · intro h
    split at h
    · cases h
    · cases h
    · next plain cipher hd =>
      dsimp only at h
      split at h
      · cases h
      · cases h
      · next st hr =>
        obtain ⟨p, hp, ha⟩ := DKGSessionState.recv_ok_iff.mp hr
        obtain ⟨-, rfl⟩ := Prod.mk.inj h
        refine ⟨plain, cipher, p, st, hd, hp, ha, ?_⟩
        rw [hp]
        rfl
  · rintro ⟨plain, cipher, p, st, hd, hp, ha, rfl⟩
    simp only [hd, DKGSessionState.recv_ok_iff.mpr ⟨p, hp, ha⟩, hp]
    rfl

theorem recvMsg_frame (D : Setup I R1 R2) (self : PublicKey) (c : HTTPComms S I R1 R2) (msg : Msg) :
    (c.recvMsg D self msg).2.produced = c.produced ∧
    (c.recvMsg D self msg).2.phase = c.phase ∧
    ((c.recvMsg D self msg).1 ≠ .ok () → (c.recvMsg D self msg).2.accepted = c.accepted) ∧
    c.decrypted <+: (c.recvMsg D self msg).2.decrypted := by
  unfold recvMsg
  split
  · exact ⟨rfl, rfl, fun _ => rfl, List.prefix_rfl⟩
  · exact ⟨rfl, rfl, fun _ => rfl, List.prefix_rfl⟩
  · dsimp only
    split
    · exact ⟨rfl, rfl, fun _ => rfl, List.prefix_append _ _⟩
    · exact ⟨rfl, rfl, fun _ => rfl, List.prefix_append _ _⟩
    · exact ⟨rfl, rfl, fun h => absurd rfl h, List.prefix_append _ _⟩

/-- What holds of a participant and is kept by every message that is received
holds after a batch. -/
theorem recvBatch_invariant {P : HTTPComms S I R1 R2 → Prop}
    (hstep : ∀ c msg, P c → P (c.recvMsg D self msg).2) {msgs : List Msg} (h : P c) :
    P (c.recvBatch D self msgs).2 := by
  induction msgs generalizing c with
  | nil => exact h
  | cons msg msgs ih =>
    have hmsg := hstep c msg h
    rw [recvBatch]
    split
    · next c₁ h1 =>
      rw [h1] at hmsg
      exact ih hmsg
    · next e c₁ h1 =>
      rw [h1] at hmsg
      exact hmsg
    · next message c₁ h1 =>
      rw [h1] at hmsg
      exact hmsg

theorem recvBatch_frame (D : Setup I R1 R2) (self : PublicKey) (c : HTTPComms S I R1 R2)
    (msgs : List Msg) :
    (c.recvBatch D self msgs).2.produced = c.produced ∧
      (c.recvBatch D self msgs).2.phase = c.phase :=
  recvBatch_invariant (P := fun c' => c'.produced = c.produced ∧ c'.phase = c.phase)
    (fun c' msg h => ⟨(recvMsg_frame D self c' msg).1.trans h.1,
      (recvMsg_frame D self c' msg).2.1.trans h.2⟩)
    ⟨rfl, rfl⟩

def Dead : Phase I R1 R2 → Prop
  | .failed _ | .cleaned _ | .panicked _ => True
  | _ => False

instance : DecidablePred (Dead : Phase I R1 R2 → Prop)
  | .failed _ | .cleaned _ | .panicked _ => .isTrue trivial
  | .exchange _ _ | .round1Done _ | .closing | .loggingOut | .finished _ => .isFalse not_false

/-- Why a participant gives up without a change of the server. -/
inductive Stuck (D : Setup I R1 R2) (self : PublicKey) (now : ℕ) (app : AppState) :
    Phase I R1 R2 → Prop
  | sending (stage : Stage) (entry : PublicKey × Option (Payload I R1 R2)) (todo : Todo I R1 R2) :
    Stuck D self now app (.exchange stage (entry :: todo))
  | receiving (stage : Stage) (e : Api.Error) :
    (receive now app (D.user self) ⟨D.sessionId, false⟩).1 = .error e →
    Stuck D self now app (.exchange stage [])
  | round1Done (r1 : Map I R1) : Stuck D self now app (.round1Done r1)
  | closing (e : Api.Error) : (closeSession app (D.user self) ⟨D.sessionId⟩).1 = .error e →
    Stuck D self now app .closing

inductive Steps (D : Setup I R1 R2) (self : PublicKey) (now : ℕ) (order : List PublicKey)
    (app : AppState) (c : HTTPComms S I R1 R2) :
    HTTPComms S I R1 R2 → AppState → Option (Letter I R1 R2) → Prop
  | sent (stage : Stage) (recipient : PublicKey) (payload : Payload I R1 R2) (todo : Todo I R1 R2)
    (msg : Bytes) (cipher : Cipher S) :
    c.phase = .exchange stage ((recipient, some payload) :: todo) →
    c.cipher.encrypt recipient (D.codec.encode payload) = (.ok msg, cipher) →
    (send now app (D.user self) ⟨D.sessionId, [recipient], msg⟩).1 = .ok () →
    Steps D self now order app c
      { c with
        cipher
        produced := c.produced ++ [(recipient, payload)]
        phase := .exchange stage todo }
      (send now app (D.user self) ⟨D.sessionId, [recipient], msg⟩).2
      (some ⟨self, recipient, payload⟩)
  | received (stage : Stage) (msgs : List Msg) (c₁ : HTTPComms S I R1 R2) (phase : Phase I R1 R2) :
    c.phase = .exchange stage [] →
    (receive now app (D.user self) ⟨D.sessionId, false⟩).1 = .ok msgs →
    c.recvBatch D self msgs = (.ok (), c₁) → Follows D self order stage c₁.state phase →
    Steps D self now order app c { c₁ with phase }
      (receive now app (D.user self) ⟨D.sessionId, false⟩).2 none
  | rejected (stage : Stage) (msgs : List Msg) (phase : Phase I R1 R2) :
    c.phase = .exchange stage [] →
    (receive now app (D.user self) ⟨D.sessionId, false⟩).1 = .ok msgs →
    (c.recvBatch D self msgs).1 ≠ .ok () → Dead phase →
    (∀ e, (c.recvBatch D self msgs).1 = .err e → phase = .failed e) →
    Steps D self now order app c { (c.recvBatch D self msgs).2 with phase }
      (receive now app (D.user self) ⟨D.sessionId, false⟩).2 none
  | stopped (cipher : Cipher S) (produced : Option (PublicKey × Payload I R1 R2))
    (phase : Phase I R1 R2) :
    Stuck D self now app c.phase → Dead phase → (∀ e, phase ≠ .failed (.session e)) →
    (∀ e, phase ≠ .cleaned e) →
    (∀ entry, produced = some entry → ∃ stage todo,
      c.phase = .exchange stage ((entry.1, some entry.2) :: todo)) →
    Steps D self now order app c
      { c with cipher, produced := c.produced ++ produced.toList, phase } app none
  | part2 (r1 : Map I R1) (r2 : Map I R2) :
    c.phase = .round1Done r1 → D.part2 self r1 = some r2 →
    Steps D self now order app c
      { c with phase := .exchange .round2 (round2Todo D self order r2) } app none
  | closed : c.phase = .closing → (closeSession app (D.user self) ⟨D.sessionId⟩).1 = .ok () →
    Steps D self now order app c { c with phase := .loggingOut }
      (closeSession app (D.user self) ⟨D.sessionId⟩).2 none
  | loggedOut : c.phase = .loggingOut →
    Steps D self now order app c (c.enter .finished c.state.round2Packages)
      (logout app (D.user self)).2 none
  | cleaned (e : Failure) : c.phase = .failed e →
    Steps D self now order app c { c with phase := .cleaned e }
      (closeSession app (D.user self) ⟨D.sessionId⟩).2 none

theorem giveUp_steps {cipher : Cipher S} {phase : Phase I R1 R2}
    (hstuck : Stuck D self now app c.phase) (hdead : Dead phase)
    (hsession : ∀ e, phase ≠ .failed (.session e)) (hcleaned : ∀ e, phase ≠ .cleaned e) :
    Steps D self now order app c { c with cipher, phase } app none := by
  have hstop : Steps D self now order app c _ _ _ :=
    .stopped cipher none phase hstuck hdead hsession hcleaned nofun
  rwa [Option.toList_none, List.append_nil] at hstop

theorem sendMsg_steps {recipient : PublicKey} {payload : Payload I R1 R2} {todo : Todo I R1 R2}
    (hphase : c.phase = .exchange stage ((recipient, some payload) :: todo))
    (h : c.sendMsg D self now app recipient payload (.exchange stage todo) = (c', app', letter)) :
    Steps D self now order app c c' app' letter := by
  have hstuck : Stuck D self now app c.phase := hphase ▸ .sending stage _ todo
  unfold sendMsg at h
  split at h
  · cases h
    exact giveUp_steps hstuck trivial nofun nofun
  · cases h
    exact giveUp_steps hstuck trivial nofun nofun
  · next msg cipher hencrypt =>
    dsimp only at h
    split at h
    · next app₁ hsend =>
      cases h
      have hsent : Steps D self now order app c _ _ _ :=
        .sent stage recipient payload todo msg cipher hphase hencrypt (congrArg Prod.fst hsend)
      rwa [hsend] at hsent
    · next e app₁ hsend =>
      cases h
      have happ := (send_eq_of_error (congrArg Prod.fst hsend)).symm
      rw [hsend] at happ
      subst happ
      refine .stopped cipher (some (recipient, payload)) (.failed (.server e)) hstuck trivial nofun
        nofun fun entry hentry => ?_
      obtain rfl := Option.some.inj hentry
      exact ⟨stage, todo, hphase⟩

theorem poll_steps (hphase : c.phase = .exchange stage [])
    (h : c.poll D self now order app stage = (c', app')) :
    Steps D self now order app c c' app' none := by
  unfold poll at h
  split at h
  · next e app₁ hreceive =>
    obtain ⟨rfl, rfl⟩ := Prod.mk.inj h
    have happ := (receive_eq_of_error (congrArg Prod.fst hreceive)).symm
    rw [hreceive] at happ
    subst happ
    have hstuck : Stuck D self now app c.phase := by
      rw [hphase]
      exact .receiving stage e (congrArg Prod.fst hreceive)
    exact giveUp_steps hstuck trivial nofun nofun
  · next msgs app₁ hreceive =>
    have hmsgs := congrArg Prod.fst hreceive
    have happ := congrArg Prod.snd hreceive
    dsimp only at happ
    subst happ
    have hkeep := (recvBatch_frame D self c msgs).2
    split at h
    · next c₁ hbatch =>
      obtain ⟨rfl, rfl⟩ := Prod.mk.inj h
      rw [hbatch] at hkeep
      obtain ⟨phase, heq, hfollows⟩ := afterReceive_follows D self order
        (hkeep.trans hphase)
      rw [heq]
      exact .received stage msgs c₁ phase hphase hmsgs hbatch hfollows
    · next e c₁ hbatch =>
      obtain ⟨rfl, rfl⟩ := Prod.mk.inj h
      have hrej : Steps D self now order app c _ _ _ := .rejected stage msgs (.failed e) hphase hmsgs
        (by rw [hbatch]; nofun) trivial (by rw [hbatch]; rintro _ ⟨⟩; rfl)
      rwa [hbatch] at hrej
    · next message c₁ hbatch =>
      obtain ⟨rfl, rfl⟩ := Prod.mk.inj h
      have hrej : Steps D self now order app c _ _ _ := .rejected stage msgs (.panicked message) hphase hmsgs
        (by rw [hbatch]; nofun) trivial (by rw [hbatch]; nofun)
      rwa [hbatch] at hrej

theorem steps_of_step (h : c.step D self now order app = some (c', app', letter)) :
    Steps D self now order app c c' app' letter := by
  unfold step at h
  split at h
  · next stage recipient payload todo hphase => exact sendMsg_steps hphase (Option.some.inj h)
  · next stage recipient todo hphase =>
    obtain ⟨rfl, rfl, rfl⟩ := h
    have hstuck : Stuck D self now app c.phase := hphase ▸ .sending stage _ todo
    exact giveUp_steps hstuck trivial nofun nofun
  · next stage hphase =>
    obtain ⟨rfl, rfl, rfl⟩ := h
    exact poll_steps hphase rfl
  · next r1 hphase =>
    split at h
    · obtain ⟨rfl, rfl, rfl⟩ := h
      have hstuck : Stuck D self now app c.phase := hphase ▸ .round1Done r1
      exact giveUp_steps hstuck trivial nofun nofun
    · next r2 hpart2 =>
      obtain ⟨rfl, rfl, rfl⟩ := h
      exact .part2 r1 r2 hphase hpart2
  · next hphase =>
    split at h
    · next app₁ hclose =>
      obtain ⟨rfl, rfl, rfl⟩ := h
      have hclosed : Steps D self now order app c _ _ _ := .closed hphase (congrArg Prod.fst hclose)
      rwa [hclose] at hclosed
    · next e app₁ hclose =>
      obtain ⟨rfl, rfl, rfl⟩ := h
      have happ := (closeSession_eq_of_error (congrArg Prod.fst hclose)).symm
      rw [hclose] at happ
      subst happ
      have hstuck : Stuck D self now app c.phase := by
        rw [hphase]
        exact .closing e (congrArg Prod.fst hclose)
      exact giveUp_steps hstuck trivial nofun nofun
  · next hphase =>
    split at h
    · next app₁ hlogout =>
      obtain ⟨rfl, rfl, rfl⟩ := h
      have hout : Steps D self now order app c _ _ _ := .loggedOut hphase
      rwa [hlogout] at hout
    · next hlogout => cases congrArg Prod.fst hlogout
  · next e hphase =>
    obtain ⟨rfl, rfl, rfl⟩ := h
    exact .cleaned e hphase
  all_goals cases h

end HTTPComms
end FrostTools.Dkg
