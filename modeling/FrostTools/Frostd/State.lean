import FrostTools.Api
import FrostTools.Lib.DelayMap

/-!
# The state of the server

Time is a natural number of milliseconds.
-/

namespace FrostTools.Frostd

def sessionTimeout : ℕ := 60 * 60 * 24 * 1000

def challengeTimeout : ℕ := 10 * 1000

def accessTokenTimeout : ℕ := 60 * 60 * 1000

/-- The owner of a message queue. -/
inductive SessionParticipant where
  | coordinator
  | participant (pubkey : PublicKey)
  deriving DecidableEq

structure Session where
  pubkeys : List PublicKey
  coordinatorPubkey : PublicKey
  messageCount : UInt8
  queue : Map SessionParticipant (List Msg)
  deriving DecidableEq

/-- The open sessions, and for every public key the sessions it belongs to. -/
structure SessionState where
  sessions : DelayMap Uuid Session
  sessionsByPubkey : Map PublicKey (Finset Uuid)

structure AppState where
  sessions : SessionState
  challenges : DelayMap Uuid Unit
  accessTokens : DelayMap Uuid PublicKey

/-- A user who presented a token that was in the token map. -/
structure User where
  pubkey : PublicKey
  currentToken : Uuid
  deriving DecidableEq

def AppState.new : AppState where
  sessions := { sessions := .new sessionTimeout, sessionsByPubkey := ∅ }
  challenges := .new challengeTimeout
  accessTokens := .new accessTokenTimeout

namespace Session

/-- The messages waiting for `q`; a queue that was never written is empty. -/
def messages (s : Session) (q : SessionParticipant) : List Msg := (s.queue.lookup q).getD []

/-- `queue.entry(q).or_default().push_back(msg)`. -/
def pushBack (s : Session) (q : SessionParticipant) (msg : Msg) : Session :=
  { s with queue := s.queue.insert q (s.messages q ++ [msg]) }

/-- Takes every message of a queue that has an entry, leaving the entry empty. -/
def drain (s : Session) (q : SessionParticipant) : List Msg × Session :=
  if q ∈ s.queue.keys then (s.messages q, { s with queue := s.queue.insert q [] }) else ([], s)

def Member (s : Session) (pubkey : PublicKey) : Prop :=
  pubkey ∈ s.pubkeys ∨ s.coordinatorPubkey = pubkey

instance (s : Session) (pubkey : PublicKey) : Decidable (s.Member pubkey) :=
  inferInstanceAs (Decidable (_ ∨ _))

/-- The part of a record that is fixed when the session is created. -/
def metadata (s : Session) : List PublicKey × PublicKey × UInt8 :=
  (s.pubkeys, s.coordinatorPubkey, s.messageCount)

theorem metadata_eq_iff {s s' : Session} : s.metadata = s'.metadata ↔
    s.pubkeys = s'.pubkeys ∧ s.coordinatorPubkey = s'.coordinatorPubkey ∧
      s.messageCount = s'.messageCount := by
  simp [metadata]

theorem member_congr {s s' : Session} (h : s.metadata = s'.metadata) (pubkey : PublicKey) :
    s.Member pubkey ↔ s'.Member pubkey := by
  obtain ⟨hp, hc, _⟩ := metadata_eq_iff.mp h
  rw [Member, Member, hp, hc]

@[simp] theorem messages_pushBack (s : Session) (q q' : SessionParticipant) (msg : Msg) :
    (s.pushBack q msg).messages q' = s.messages q' ++ if q' = q then [msg] else [] := by
  simp only [messages, pushBack, Map.lookup_insert]
  split_ifs with h
  · simp [h]
  · simp

theorem messages_eq_nil_of_notMem {s : Session} {q : SessionParticipant} (h : q ∉ s.queue.keys) :
    s.messages q = [] := by
  rw [messages, Map.lookup_eq_none_iff.mpr h, Option.getD_none]

@[simp] theorem drain_fst (s : Session) (q : SessionParticipant) :
    (s.drain q).1 = s.messages q := by
  unfold drain
  split_ifs with h
  · rfl
  · exact (messages_eq_nil_of_notMem h).symm

@[simp] theorem messages_drain (s : Session) (q q' : SessionParticipant) :
    (s.drain q).2.messages q' = if q' = q then [] else s.messages q' := by
  unfold drain
  split_ifs with h hq
  · simp [messages, hq]
  · simp [messages, Map.lookup_insert, hq]
  · next hq => rw [hq, messages_eq_nil_of_notMem h]
  · rfl

@[simp] theorem metadata_pushBack (s : Session) (q : SessionParticipant) (msg : Msg) :
    (s.pushBack q msg).metadata = s.metadata := rfl

@[simp] theorem metadata_drain (s : Session) (q : SessionParticipant) :
    (s.drain q).2.metadata = s.metadata := by
  unfold drain; split_ifs <;> rfl

end Session

namespace SessionState

def listed (index : Map PublicKey (Finset Uuid)) (pubkey : PublicKey) : Finset Uuid :=
  (index.lookup pubkey).getD ∅

/-- `index.entry(pubkey).or_default().insert(id)`. -/
def insertId (id : Uuid) (index : Map PublicKey (Finset Uuid)) (pubkey : PublicKey) :
    Map PublicKey (Finset Uuid) :=
  index.insert pubkey (insert id (listed index pubkey))

/-- `if let Some(v) = index.get_mut(&pubkey) { v.remove(&id) }`. -/
def removeId (id : Uuid) (index : Map PublicKey (Finset Uuid)) (pubkey : PublicKey) :
    Map PublicKey (Finset Uuid) :=
  match index.lookup pubkey with
  | some v => index.insert pubkey (v.erase id)
  | none => index

theorem mem_listed_insertId {id id' : Uuid} {index : Map PublicKey (Finset Uuid)}
    {pubkey pubkey' : PublicKey} :
    id' ∈ listed (insertId id index pubkey) pubkey' ↔
      (id' = id ∧ pubkey' = pubkey) ∨ id' ∈ listed index pubkey' := by
  simp only [listed, insertId, Map.lookup_insert]
  split_ifs with h
  · simp [h]
  · simp [h]

theorem mem_listed_foldl_insertId {id id' : Uuid} {pubkeys : List PublicKey} {pubkey : PublicKey}
    {index : Map PublicKey (Finset Uuid)} :
    id' ∈ listed (pubkeys.foldl (insertId id) index) pubkey ↔
      (id' = id ∧ pubkey ∈ pubkeys) ∨ id' ∈ listed index pubkey := by
  induction pubkeys generalizing index with
  | nil => simp
  | cons p ps ih =>
    rw [List.foldl_cons, ih, mem_listed_insertId, List.mem_cons]
    tauto

theorem lookup_removeId (id : Uuid) (index : Map PublicKey (Finset Uuid))
    (pubkey pubkey' : PublicKey) :
    (removeId id index pubkey).lookup pubkey' =
      if pubkey' = pubkey then (index.lookup pubkey').map (·.erase id)
      else index.lookup pubkey' := by
  unfold removeId
  split
  · next v h =>
    rw [Map.lookup_insert]
    split_ifs with hp
    · rw [hp, h, Option.map_some]
    · rfl
  · next h =>
    split_ifs with hp
    · rw [hp, h, Option.map_none]
    · rfl

theorem mem_listed_removeId {id id' : Uuid} {index : Map PublicKey (Finset Uuid)}
    {pubkey pubkey' : PublicKey} :
    id' ∈ listed (removeId id index pubkey) pubkey' ↔
      id' ∈ listed index pubkey' ∧ ¬(id' = id ∧ pubkey' = pubkey) := by
  rw [listed, listed, lookup_removeId]
  split_ifs with h
  · cases index.lookup pubkey' with
    | none => simp
    | some v => simp [h, and_comm]
  · simp [h]

theorem lookup_foldl_removeId (id : Uuid) (pubkeys : List PublicKey)
    (index : Map PublicKey (Finset Uuid)) (pubkey : PublicKey) :
    (pubkeys.foldl (removeId id) index).lookup pubkey =
      if pubkey ∈ pubkeys then (index.lookup pubkey).map (·.erase id)
      else index.lookup pubkey := by
  induction pubkeys generalizing index with
  | nil => simp
  | cons p ps ih =>
    rw [List.foldl_cons, ih, lookup_removeId]
    by_cases hp : pubkey = p <;> by_cases hps : pubkey ∈ ps <;>
      simp [hp, hps, Option.map_map, Function.comp_def]

theorem mem_listed_foldl_removeId {id id' : Uuid} {pubkeys : List PublicKey} {pubkey : PublicKey}
    {index : Map PublicKey (Finset Uuid)} :
    id' ∈ listed (pubkeys.foldl (removeId id) index) pubkey ↔
      id' ∈ listed index pubkey ∧ ¬(id' = id ∧ pubkey ∈ pubkeys) := by
  induction pubkeys generalizing index with
  | nil => simp
  | cons p ps ih =>
    rw [List.foldl_cons, ih, mem_listed_removeId, List.mem_cons]
    tauto

end SessionState
end FrostTools.Frostd
