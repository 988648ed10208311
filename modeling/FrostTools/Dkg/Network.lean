import FrostTools.Dkg.Http
import FrostTools.Lib.TransitionSystem

/-!
# The participants and the server

Each step is one request of one participant with the local computation around
it, so every interleaving of requests is a run. Corrupted users send arbitrary
requests. No timeout fires.
-/

namespace FrostTools.Dkg
open Client Session Frostd

/-- The server, the participants, and the messages accepted by the server so far. -/
structure Network (S : Snow) (I R1 R2 : Type*) where
  server : AppState
  comms : PublicKey → HTTPComms S I R1 R2
  history : List (Letter I R1 R2)

inductive Action where
  | participant (pubkey : PublicKey) (now : ℕ) (order : List PublicKey)
  | corrupted (user : User) (now : ℕ) (request : Request)

/-- Ids are never drawn twice, so no request creates the session again. -/
def Recreates (id : Uuid) : Request → Bool
  | .createNewSession _ id' => decide (id' = id)
  | _ => false

variable {S : Snow} {I R1 R2 : Type*} [LinearOrder I] [DecidableEq R1]

namespace Network

/-- The session as its creator opened it, on a server in any state. -/
def start (D : Setup I R1 R2) (now : ℕ) (app : AppState) (order : PublicKey → List PublicKey) :
    Network S I R1 R2 where
  server := (createNewSession now app (D.user D.creator) ⟨D.members, 1⟩ D.sessionId).2
  comms pubkey := .start D pubkey (order pubkey)
  history := []

def step (D : Setup I R1 R2) (corrupted : Finset PublicKey) (s : Network S I R1 R2) :
    Action → Option (Network S I R1 R2)
  | .participant pubkey now order =>
    if pubkey ∈ D.members ∧ pubkey ∉ corrupted ∧ D.Iterates order then
      ((s.comms pubkey).step D pubkey now order s.server).map fun (c, app, letter) =>
        { server := app
          comms := Function.update s.comms pubkey c
          history := s.history ++ letter.toList }
    else none
  | .corrupted user now request =>
    if user.pubkey ∈ corrupted ∧ Recreates D.sessionId request = false then
      some { s with server := (handle now s.server user request).2 }
    else none

def system (S : Snow) (D : Setup I R1 R2) (corrupted : Finset PublicKey) :
    TransitionSystem (Network S I R1 R2) Action :=
  .ofStep (fun s => ∃ now app order, (∀ pubkey, D.Iterates (order pubkey)) ∧ s = start D now app order)
    (step D corrupted)

variable {D : Setup I R1 R2} {corrupted : Finset PublicKey} {s s' : Network S I R1 R2} {a : Action}

inductive Steps (D : Setup I R1 R2) (corrupted : Finset PublicKey) (s : Network S I R1 R2) :
    Action → Network S I R1 R2 → Prop
  | participant (pubkey : PublicKey) (now : ℕ) (order : List PublicKey)
    (c : HTTPComms S I R1 R2) (app : AppState) (letter : Option (Letter I R1 R2)) :
    pubkey ∈ D.members → pubkey ∉ corrupted → D.Iterates order →
    (s.comms pubkey).step D pubkey now order s.server = some (c, app, letter) →
    Steps D corrupted s (.participant pubkey now order)
      ⟨app, Function.update s.comms pubkey c, s.history ++ letter.toList⟩
  | corrupted (user : User) (now : ℕ) (request : Request) :
    user.pubkey ∈ corrupted → Recreates D.sessionId request = false →
    Steps D corrupted s (.corrupted user now request)
      { s with server := (handle now s.server user request).2 }

theorem steps_of_step (h : (system S D corrupted).step s a s') : Steps D corrupted s a s' := by
  change s.step D corrupted a = some s' at h
  unfold step at h
  cases a with
  | participant pubkey now order =>
    dsimp only at h
    split_ifs at h with hp
    obtain ⟨⟨c, app, letter⟩, hc, rfl⟩ := Option.map_eq_some_iff.mp h
    exact .participant pubkey now order c app letter hp.1 hp.2.1 hp.2.2 hc
  | corrupted user now request =>
    dsimp only at h
    split_ifs at h with hu
    obtain rfl := Option.some.inj h
    exact .corrupted user now request hu.1 hu.2

/-- What holds of every participant at the start and is kept by its own steps
holds of every honest participant in every run. -/
theorem invariant_comms {P : PublicKey → HTTPComms S I R1 R2 → Prop}
    (hstart : ∀ pubkey order, D.Iterates order → P pubkey (.start D pubkey order))
    (hstep : ∀ pubkey now order app c c' app' letter, pubkey ∈ D.members → D.Iterates order →
      P pubkey c → HTTPComms.step D c pubkey now order app = some (c', app', letter) → P pubkey c')
    (h : (system S D corrupted).Reachable s) (pubkey : PublicKey) : P pubkey (s.comms pubkey) := by
  refine TransitionSystem.Reachable.invariant (P := fun s => P pubkey (s.comms pubkey)) ?_ ?_ h
  · rintro s ⟨now, app, order, horder, rfl⟩
    exact hstart pubkey (order pubkey) (horder pubkey)
  · intro s a s' _ hP he
    cases steps_of_step he with
    | participant pubkey' now order c app letter hmem _ horder hc =>
      by_cases hp : pubkey = pubkey'
      · subst hp
        change P pubkey (Function.update s.comms pubkey c pubkey)
        rw [Function.update_self]
        exact hstep pubkey now order s.server _ c app letter hmem horder hP hc
      · change P pubkey (Function.update s.comms pubkey' c pubkey)
        rw [Function.update_of_ne hp]
        exact hP
    | corrupted user now request _ _ => exact hP

/-- Frames instead of encryption: the first message of a channel carries the two keys,
a later one its number. -/
def sampleSnow : Snow where
  HandshakeState := PublicKey × PublicKey
  TransportState := UInt8
  buildInitiator localKey remoteKey := some (localKey, remoteKey)
  buildResponder localKey remoteKey := some (remoteKey, localKey)
  writeHandshake h m := (some (h.1.bytes ++ h.2.bytes ++ m), h)
  readHandshake h x :=
    let header := h.1.bytes ++ h.2.bytes
    (if x.take header.length = header then some (x.drop header.length) else none, h)
  isHandshakeFinished _ := true
  intoTransportMode _ := some (0 : UInt8)
  writeTransport (n : UInt8) m := (some (n :: m), n + 1)
  readTransport (n : UInt8) x := (if x.head? = some n then some x.tail else none, n + 1)

theorem sampleSnow_inOrder : sampleSnow.InOrder (· = ·) (· = ·) where
  build h h' := by
    obtain rfl := Option.some.inj h
    exact Option.some.inj h'
  handshake := by
    rintro h h₁ _ m x rfl hwrite
    obtain ⟨hx, rfl⟩ := Prod.mk.inj hwrite
    obtain rfl := Option.some.inj hx
    refine ⟨h, (0 : UInt8), (0 : UInt8), ?_, rfl, rfl, rfl, rfl, rfl⟩
    let header : Bytes := h.1.bytes ++ h.2.bytes
    change (if (header ++ m).take header.length = header then
      some ((header ++ m).drop header.length) else none, h) = (some m, h)
    rw [List.take_left, List.drop_left, if_pos rfl]
  transport := by
    rintro t t₁ _ m x rfl hwrite
    obtain ⟨hx, rfl⟩ := Prod.mk.inj hwrite
    obtain rfl := Option.some.inj hx
    refine ⟨(show UInt8 from t) + 1, ?_, rfl⟩
    exact Prod.ext (if_pos rfl) rfl

def sampleCodec : Codec (Fin 256) UInt8 UInt8 where
  encode
    | .round1 package => [1, package]
    | .broadcast original package => [2, UInt8.ofFin original, package]
    | .round2 package => [3, package]
  decode :=
    { round1 := fun b => match b with
        | [1, package] => some package
        | _ => none
      broadcast := fun b => match b with
        | [2, original, package] => some (original.toFin, package)
        | _ => none
      round2 := fun b => match b with
        | [3, package] => some package
        | _ => none }

theorem sampleCodec_lawful : sampleCodec.Lawful where
  round1 p := by cases p <;> rfl
  broadcast p := by cases p <;> rfl
  round2 p := by cases p <;> rfl

/-- The keys `1`, …, `n`, each with its byte as identifier and package. -/
def sampleSetup (n : ℕ) (hn : 0 < n) : Setup (Fin 256) UInt8 UInt8 where
  sessionId := 0
  members := (List.range n).map fun i => ⟨[UInt8.ofNat (i + 1)]⟩
  creator := ⟨[1]⟩
  creator_mem := List.mem_map.mpr ⟨0, List.mem_range.mpr hn, rfl⟩
  token pubkey := BitVec.ofNat 128 (pubkey.bytes.headD 0).toNat
  identifier pubkey := (pubkey.bytes.headD 0).toFin
  codec := sampleCodec
  round1Package pubkey := pubkey.bytes.headD 0
  part2 _ r1 := some r1

def sampleActions (D : Setup (Fin 256) UInt8 UInt8) (keys : List UInt8) : List Action :=
  keys.map fun b => .participant ⟨[b]⟩ 0 D.members

def sampleStart (D : Setup (Fin 256) UInt8 UInt8) : Network sampleSnow (Fin 256) UInt8 UInt8 :=
  start D 0 AppState.new fun _ => D.members

def sampleExec (D : Setup (Fin 256) UInt8 UInt8) (corrupted : Finset PublicKey)
    (good : Network sampleSnow (Fin 256) UInt8 UInt8 → Prop) [DecidablePred good]
    (as : List Action) : Option (Network sampleSnow (Fin 256) UInt8 UInt8) :=
  TransitionSystem.exec (step D corrupted) good (sampleStart D) as

theorem exists_run_of_sampleExec (D : Setup (Fin 256) UInt8 UInt8) (corrupted : Finset PublicKey)
    (good P : Network sampleSnow (Fin 256) UInt8 UInt8 → Prop) [DecidablePred good]
    (as : List Action) (hD : D.Iterates D.members) (hgood : good (sampleStart D))
    (h : ∃ s ∈ sampleExec D corrupted good as, P s) :
    ∃ s, ((system sampleSnow D corrupted).within good).Run as s ∧ P s := by
  obtain ⟨s, hs, hP⟩ := h
  have hstart : (system sampleSnow D corrupted).init (sampleStart D) :=
    ⟨0, AppState.new, fun _ => D.members, fun _ => hD, rfl⟩
  exact ⟨s, TransitionSystem.Run.exec (.start ⟨hstart, hgood⟩) hs, hP⟩

abbrev pair : Setup (Fin 256) UInt8 UInt8 := sampleSetup 2 (by decide)

abbrev trio : Setup (Fin 256) UInt8 UInt8 := sampleSetup 3 (by decide)

end Network
end FrostTools.Dkg
