import FrostTools.Lib.TransitionSystem
import FrostTools.Session.Peers

/-!
# Rejected messages

Every error exit of `recv` comes before the state is written, except the one for a duplicated
echo. That one writes an echo again which is stored already, and so it changes nothing either.
-/

namespace FrostTools.Session

variable {I C S R1 R2 : Type*} [DecidableEq I] [DecidableEq R1]

namespace CoordinatorSessionState

def system (I : Type*) [DecidableEq I] (decode : CoordinatorDecoder C S) :
    TransitionSystem (CoordinatorSessionState I C S) Msg where
  init st := ∃ numMessages numSigners pubkeys, st = new numMessages numSigners pubkeys
  step st msg st' := (st.recv decode msg).2 = st'

theorem Recv.unchanged_of_err {decode : CoordinatorDecoder C S} {msg : Msg}
    {st st' : CoordinatorSessionState I C S} {e : Error} (h : Recv decode msg st (.err e) st') :
    st' = st := by
  cases h
  rfl

end CoordinatorSessionState

namespace DKGSessionState

/-- Sessions that receive messages, each with any identifier as that of the receiver. -/
def system (decode : DKGDecoder I R1 R2) :
    TransitionSystem (DKGSessionState I R1 R2) (Msg × I) where
  init st := ∃ pubkeys, st = new pubkeys
  step st e st' := (st.recv decode e.1 e.2).2 = st'

/-- Every stored echo is the package that was received from the original sender. -/
def EchoesOriginals : DKGSessionState I R1 R2 → Prop
  | .waitingForRound1PackagesBroadcast _ round1Packages broadcasted =>
    ∀ original sender package, heard broadcasted original sender = some package →
      round1Packages.lookup original = some package
  | _ => True

variable {decode : DKGDecoder I R1 R2} {self : I} {msg : Msg} {st st' : DKGSessionState I R1 R2}

omit [DecidableEq R1] in
theorem EchoesOriginals.insertBroadcast {pubkeys : Map PublicKey I} {r1 : Map I R1}
    {broadcasted : Map I (Map I R1)} {original sender : I} {package : R1}
    (h : (waitingForRound1PackagesBroadcast pubkeys r1 broadcasted :
      DKGSessionState I R1 R2).EchoesOriginals)
    (hr1 : r1.lookup original = some package) :
    (waitingForRound1PackagesBroadcast pubkeys r1
      (insertBroadcast broadcasted original sender package) :
        DKGSessionState I R1 R2).EchoesOriginals := by
  intro original' sender' package' hheard
  rw [heard_insertBroadcast] at hheard
  split_ifs at hheard with hsame
  · rw [hsame.1, hr1, Option.some.inj hheard]
  · exact h original' sender' package' hheard

theorem Accepts.echoesOriginals {pubkey : PublicKey} {p : Payload I R1 R2}
    (h : Accepts self pubkey p st st') (hst : st.EchoesOriginals) : st'.EchoesOriginals := by
  cases h with
  | round1 pubkeys r1 identifier package _ =>
    split_ifs
    · intro original sender package' hheard
      simp [heard] at hheard
    · trivial
    · trivial
  | broadcast pubkeys r1 broadcasted sender original package _ _ _ _ hr1 _ =>
    split_ifs
    · trivial
    · exact EchoesOriginals.insertBroadcast hst hr1
  | round2 _ _ _ _ _ _ _ => split_ifs <;> trivial

/-- The only error exit after a write finds the echo that it writes. -/
theorem EchoesOriginals.unchanged_of_ne_ok (hst : st.EchoesOriginals)
    (h : (st.recv decode msg self).1 ≠ .ok ()) : (st.recv decode msg self).2 = st := by
  rcases recv_of_ne_ok h with hsame | ⟨pubkeys, r1, broadcasted, sender, original, package, rfl,
    hr1, hheard, hwritten⟩
  · exact hsame
  · have hstored : heard broadcasted original sender = some package := by
      obtain ⟨package', hp⟩ := Option.ne_none_iff_exists'.mp hheard
      rw [hp, ← hr1, hst original sender package' hp]
    rw [hwritten, insertBroadcast_of_heard hstored]

theorem echoesOriginals_of_reachable (h : (system decode).Reachable st) : st.EchoesOriginals := by
  apply h.invariant
  · intro st hinit
    obtain ⟨pubkeys, rfl⟩ := hinit
    trivial
  · intro st e st' _ hst hstep
    obtain ⟨msg, self⟩ := e
    have hrecv : (st.recv decode msg self).2 = st' := hstep
    by_cases hok : (st.recv decode msg self).1 = .ok ()
    · obtain ⟨p, -, haccepts⟩ := recv_ok_iff.mp (Prod.ext hok hrecv)
      exact haccepts.echoesOriginals hst
    · rw [← hrecv, hst.unchanged_of_ne_ok hok]
      exact hst

end DKGSessionState

/-- In every reachable state of a session, a message that `recv` rejects leaves the state as it
was. -/
theorem rejected_unchanged (decode : CoordinatorDecoder C S) (decodeDkg : DKGDecoder I R1 R2) :
    (∀ st, (CoordinatorSessionState.system I decode).Reachable st → ∀ msg e,
      (st.recv decode msg).1 = .err e → (st.recv decode msg).2 = st) ∧
    ∀ st, (DKGSessionState.system decodeDkg).Reachable st → ∀ msg self e,
      (st.recv decodeDkg msg self).1 = .err e → (st.recv decodeDkg msg self).2 = st := by
  constructor
  · intro st _ msg e herr
    have hrecv := st.recv_spec decode msg
    rw [herr] at hrecv
    exact hrecv.unchanged_of_err
  · intro st h msg self e herr
    apply (DKGSessionState.echoesOriginals_of_reachable h).unchanged_of_ne_ok
    rw [herr]
    exact Outcome.err_ne_ok e ()

/-- The state of participant 1 after both packages and the echo of 3 by participant 2. -/
def echoedOnce : DKGSessionState UInt8 UInt8 UInt8 :=
  ([⟨⟨[2]⟩, [20]⟩, ⟨⟨[3]⟩, [30]⟩, ⟨⟨[2]⟩, [3, 30]⟩] : List Msg).foldl
    (fun st msg => (st.recv sampleDKGDecoder msg 1).2) (.new sampleGroup.pubkeys)

/-- The echo is rejected when it comes again. -/
theorem rejected_unchanged_echo :
    (echoedOnce.recv sampleDKGDecoder ⟨⟨[2]⟩, [3, 30]⟩ 1).1 =
      .err (.eyre "duplicated broadcast Round 1 Package") ∧
    (echoedOnce.recv sampleDKGDecoder ⟨⟨[2]⟩, [3, 30]⟩ 1).2 = echoedOnce := by
  have hnew : (DKGSessionState.system sampleDKGDecoder).Reachable (.new sampleGroup.pubkeys) :=
    ⟨[], .start ⟨sampleGroup.pubkeys, rfl⟩⟩
  have hpackage : (DKGSessionState.system sampleDKGDecoder).Reachable _ :=
    hnew.step (e := (⟨⟨[2]⟩, [20]⟩, 1)) rfl
  have hpackages : (DKGSessionState.system sampleDKGDecoder).Reachable _ :=
    hpackage.step (e := (⟨⟨[3]⟩, [30]⟩, 1)) rfl
  have hecho : (DKGSessionState.system sampleDKGDecoder).Reachable echoedOnce :=
    hpackages.step (e := (⟨⟨[2]⟩, [3, 30]⟩, 1)) rfl
  have herr : (echoedOnce.recv sampleDKGDecoder ⟨⟨[2]⟩, [3, 30]⟩ 1).1 =
      .err (.eyre "duplicated broadcast Round 1 Package") := by decide
  exact ⟨herr, (rejected_unchanged (I := UInt8) CoordinatorSessionState.sampleDecoder
    sampleDKGDecoder).2 echoedOnce hecho ⟨⟨[2]⟩, [3, 30]⟩ 1 _ herr⟩

end FrostTools.Session
