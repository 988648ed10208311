import FrostTools.Client.Simultaneous

/-!
# Config files that commands share

Commands that run at the same time read and write the same config files, and a later write takes the
place of an earlier one. What every edit keeps of a config holds of every file at every moment.
-/

namespace FrostTools.Client

variable {L : Libraries} {C : Ciphersuite}

/-- The participants are stored under their identifiers, and the group can be read. -/
structure Group.WellFormed (L : Libraries) (group : Group) : Prop where
  readable : group.Readable L
  participant : ∀ id participant, group.participant.lookup id = some participant →
    id = hexEncode participant.identifier

/-- The contacts are stored under their names and without a version. -/
structure Config.WellFormed (L : Libraries) (config : Config) : Prop where
  contact : ∀ name contact, config.contact.lookup name = some contact →
    contact.name = name ∧ contact.version = none
  group : ∀ key group, config.group.lookup key = some group → group.WellFormed L

namespace Config.WellFormed

variable {config config' : Config}

theorem of_contact_eq (h : config.WellFormed L) (hcontact : config'.contact = config.contact)
    (hgroup : ∀ key group, config'.group.lookup key = some group → group.WellFormed L) :
    config'.WellFormed L :=
  ⟨by rw [hcontact]; exact h.contact, hgroup⟩

theorem insertGroup (h : config.WellFormed L) {group : Group} (hgroup : group.WellFormed L)
    (key : String) : { config with group := config.group.insert key group }.WellFormed L := by
  refine h.of_contact_eq rfl fun key' group' hlookup => ?_
  rw [Map.lookup_insert] at hlookup
  split_ifs at hlookup
  · cases hlookup
    exact hgroup
  · exact h.group key' group' hlookup

theorem addContacts (h : config.WellFormed L) {contacts : List Contact}
    (hcontacts : ∀ contact ∈ contacts, contact.version = none) :
    { config with contact := addContacts config.contact contacts }.WellFormed L := by
  refine ⟨fun name contact hlookup => ?_, h.group⟩
  rcases lookup_addContacts_iff.mp hlookup with ⟨hold, -⟩ | ⟨after, hsuffix, hname, -⟩
  · exact h.contact name contact hold
  · exact ⟨hname, hcontacts contact (hsuffix.mem List.mem_cons_self)⟩

theorem init (h : config.WellFormed L) {keypair : Option CommunicationKey}
    (hedit : initEdit keypair config = .ok config') : config'.WellFormed L := by
  unfold initEdit at hedit
  split at hedit
  · cases hedit
    exact h
  · obtain ⟨key, -, hedit⟩ := Outcome.bind_eq_ok_iff.mp hedit
    cases hedit
    exact ⟨h.contact, h.group⟩

theorem importContact (h : config.WellFormed L) {text : String}
    (hedit : importEdit L text config = .ok config') : config'.WellFormed L := by
  obtain ⟨contact, -, hedit⟩ := Outcome.bind_eq_ok_iff.mp hedit
  split_ifs at hedit
  cases hedit
  refine ⟨fun name c hlookup => ?_, h.group⟩
  dsimp only at hlookup
  rw [Map.lookup_insert] at hlookup
  split_ifs at hlookup with hname
  · cases hlookup
    exact ⟨hname.symm, rfl⟩
  · exact h.contact name c hlookup

theorem remove (h : config.WellFormed L) {pubkey : String}
    (hedit : removeEdit pubkey config = .ok config') : config'.WellFormed L := by
  obtain ⟨⟨name, _⟩, -, hedit⟩ := Outcome.bind_eq_ok_iff.mp hedit
  cases hedit
  refine ⟨fun name' c hlookup => ?_, h.group⟩
  dsimp only at hlookup
  rw [Map.lookup_erase] at hlookup
  split_ifs at hlookup
  exact h.contact name' c hlookup

theorem removeGroup (h : config.WellFormed L) {group : String}
    (hedit : removeGroupEdit group config = .ok config') : config'.WellFormed L := by
  unfold removeGroupEdit at hedit
  split_ifs at hedit
  cases hedit
  refine h.of_contact_eq rfl fun key' group' hlookup => ?_
  rw [Map.lookup_erase] at hlookup
  split_ifs at hlookup
  exact h.group key' group' hlookup

end Config.WellFormed

theorem eq_hexEncode_of_lookup {l : List (String × Participant)}
    (hl : ∀ x ∈ l, x.1 = hexEncode x.2.identifier) {id : String} {participant : Participant}
    (h : (Map.ofList l).lookup id = some participant) : id = hexEncode participant.identifier :=
  hl (id, participant) (Map.mem_of_lookup_ofList h)

section Groups

variable {name : CiphersuiteName} {config config' : Config}

theorem Config.WellFormed.storeShare (hL : L.Lawful) (h : config.WellFormed L)
    {args : TrustedDealerArgs} {publicKeyPackage : (L.ciphersuite name).PublicKeyPackage}
    {dealt : List ((L.ciphersuite name).Identifier × Contact)}
    {share : (L.ciphersuite name).SecretShare} (hdealt : ∀ x ∈ dealt, x.2.version = none)
    (hedit : storeShareEdit args publicKeyPackage dealt share config = .ok config') :
    config'.WellFormed L := by
  obtain ⟨k, -, hedit⟩ := Outcome.bind_eq_ok_iff.mp hedit
  obtain ⟨keyPackage, hk, hedit⟩ := Outcome.bind_eq_ok_iff.mp hedit
  obtain ⟨encoded, hp, hedit⟩ := Outcome.bind_eq_ok_iff.mp hedit
  obtain ⟨verifyingKey, hv, hedit⟩ := Outcome.bind_eq_ok_iff.mp hedit
  rw [Outcome.okOr_eq_ok_iff] at hk hp hv
  cases hedit
  have hgroup : Group.WellFormed L ⟨args.description, (L.ciphersuite name).ID, encoded, keyPackage,
      args.serverUrl, participantsOf dealt⟩ := by
    refine ⟨Group.readable_of_encoded hL rfl hk hp hv, fun id participant hlookup => ?_⟩
    refine eq_hexEncode_of_lookup (fun x hx => ?_) hlookup
    obtain ⟨⟨identifier, contact⟩, -, rfl⟩ := List.mem_map.mp hx
    rfl
  refine (h.addContacts fun contact hcontact => ?_).insertGroup hgroup _
  obtain ⟨x, hx, rfl⟩ := List.mem_map.mp hcontact
  exact hdealt x hx

theorem Config.WellFormed.storeGroup (hL : L.Lawful) (h : config.WellFormed L) {args : DkgArgs}
    {inputs : DkgInputs (L.ciphersuite name)} {before : Config}
    {generated : (L.ciphersuite name).PublicKeyPackage × Group}
    (hgenerated : dkgGroup L (L.ciphersuite name) args inputs before = .ok generated)
    (hedit : storeGroupEdit generated config = .ok config') : config'.WellFormed L := by
  obtain ⟨_, -, hgenerated⟩ := Outcome.bind_eq_ok_iff.mp hgenerated
  obtain ⟨_, -, hgenerated⟩ := Outcome.bind_eq_ok_iff.mp hgenerated
  obtain ⟨_, -, hgenerated⟩ := Outcome.bind_eq_ok_iff.mp hgenerated
  obtain ⟨_, -, hgenerated⟩ := Outcome.bind_eq_ok_iff.mp hgenerated
  obtain ⟨⟨k, p, pubkeyMap⟩, -, hgenerated⟩ := Outcome.bind_eq_ok_iff.mp hgenerated
  obtain ⟨participants, hparticipants, hgenerated⟩ := Outcome.bind_eq_ok_iff.mp hgenerated
  obtain ⟨keyPackage, hk, hgenerated⟩ := Outcome.bind_eq_ok_iff.mp hgenerated
  obtain ⟨encoded, hp, hgenerated⟩ := Outcome.bind_eq_ok_iff.mp hgenerated
  cases hgenerated
  obtain ⟨verifyingKey, hv, hedit⟩ := Outcome.bind_eq_ok_iff.mp hedit
  rw [Outcome.okOr_eq_ok_iff] at hk hp hv
  cases hedit
  refine h.insertGroup ⟨Group.readable_of_encoded hL rfl hk hp hv, fun id participant hlookup => ?_⟩ _
  obtain ⟨entries, hentries, hofList⟩ := Outcome.bind_eq_ok_iff.mp hparticipants
  cases hofList
  refine eq_hexEncode_of_lookup (fun x hx => ?_) hlookup
  obtain ⟨identifier, -, hx⟩ := Outcome.exists_of_mem_mapM hentries hx
  obtain ⟨pubkey, -, hx⟩ := Outcome.bind_eq_ok_iff.mp hx
  cases hx
  rfl

end Groups

namespace Storage

variable {platform : Platform} {U : Encoding L} {path : Option String}

/-- The contents of a config file that can be read, and whose config has the property. -/
def Holds (U : Encoding L) (P : Config → Prop) (contents : Bytes) : Prop :=
  ∃ text config, U.fromUtf8 contents = some text ∧ L.tomlFromStr text = some config ∧ P config

/-- A process that finds configs with a property, and may put such configs in place only. -/
def keeper (U : Encoding L) (own : List String) (P : Config → Prop) : Access Unit where
  finds _ path found := path ∈ own → ∀ contents, found = some contents → Holds U P contents
  mayPut _ path contents := path ∈ own ∧ Holds U P contents
  put _ _ _ := ()
  mayMiss := True

structure OfContents (P : Config → Prop) : Prop where
  default : P Config.default
  path : ∀ {config : Config}, P config → ∀ path, P { config with path := path }

section Keeper

variable {own : List String} {P : Config → Prop} {E : ConfigError → Mode Unit → Prop}
  (hP : OfContents P) (hE : ∀ e m, E e m)
include hP hE

theorem obeys_readConfig_keeper (hpath : Config.parsePath L path ∈ own)
    (htemp : platform.isTemp (Config.parsePath L path) = false) :
    (readConfig U path).Obeys ((keeper U own P).monitor platform) E
      (fun config _ m => P config ∧ config.path = some (Config.parsePath L path) ∧ m = ⟨(), none⟩)
      () ⟨(), none⟩ := by
  apply Method.Obeys.bind
  refine Method.Obeys.query htemp fun answer _ => ?_
  have hnext : ((keeper U own P).monitor platform).next ⟨(), none⟩
      (.pathExists (Config.parsePath L path)) answer = ⟨(), none⟩ := by
    cases answer <;> rfl
  rw [hnext]
  dsimp only
  split_ifs
  · apply Method.Obeys.bind
    refine Method.Obeys.query htemp fun answer hread => ?_
    apply Method.Obeys.bind
    cases answer with
    | none => exact .fail (hE _ _)
    | some contents =>
      refine .lift (Outcome.okOr_ne_panic _ _) ?_ fun e _ => hE e _
      rintro _ ⟨⟩
      obtain ⟨text, config, htext, hconfig, hPconfig⟩ := hread hpath contents rfl
      apply Method.Obeys.bind
      refine .lift (Outcome.okOr_ne_panic _ _) (fun text' htext' => ?_) fun e _ => hE e _
      rw [Outcome.okOr_eq_ok_iff, htext, Option.some.injEq] at htext'
      subst htext'
      apply Method.Obeys.bind
      refine .lift (Outcome.okOr_ne_panic _ _) (fun config' hconfig' => ?_) fun e _ => hE e _
      rw [Outcome.okOr_eq_ok_iff, hconfig, Option.some.injEq] at hconfig'
      subst hconfig'
      exact .pure ⟨hP.path hPconfig _, rfl, rfl⟩
  · exact .pure ⟨hP.path hP.default _, rfl, rfl⟩

theorem obeys_update_keeper (hL : L.Lawful) (hU : U.Lawful)
    (hpath : Config.parsePath L path ∈ own)
    (htemp : platform.isTemp (Config.parsePath L path) = false)
    {edit : Config → Outcome ConfigError Config} (hedits : Edits edit)
    (hkeeps : ∀ config config', P config → edit config = .ok config' → P config') :
    (update platform U path edit).Obeys ((keeper U own P).monitor platform) E
      (fun _ _ m => m = ⟨(), none⟩) () ⟨(), none⟩ := by
  apply Method.Obeys.bind
  refine (obeys_readConfig_keeper hP hE hpath htemp).mono (fun _ _ h => h) ?_
  rintro config ⟨⟩ _ ⟨hPconfig, hconfig, rfl⟩
  apply Method.Obeys.bind
  refine .lift (hedits.neverPanics config) (fun config' hedit => ?_) fun e _ => hE e _
  apply Method.Obeys.bind
  refine .lift (Outcome.okOr_ne_panic _ _) (fun text htext => ?_) fun e _ => hE e _
  apply Method.Obeys.bind
  refine .lift (Outcome.okOr_ne_panic _ _) (fun file hfile => ?_) fun e _ => hE e _
  rw [Outcome.okOr_eq_ok_iff] at htext
  rw [Outcome.okOr_eq_ok_iff, hedits.path hedit, hconfig, Option.some.injEq] at hfile
  subst hfile
  have hholds : Holds U P (U.asBytes text) :=
    ⟨text, _, hU text, hL.toml htext, hP.path (hkeeps config config' hPconfig hedit) none⟩
  exact obeys_writeFile ⟨hpath, hholds⟩ htemp (fun e => hE e _) rfl

end Keeper

theorem ofContents_wellFormed : OfContents (Config.WellFormed L) where
  default := by
    constructor
    · intro name contact hlookup
      cases (Map.lookup_empty name).symm.trans hlookup
    · intro key group hlookup
      cases (Map.lookup_empty key).symm.trans hlookup
  path h _ := ⟨h.contact, h.group⟩

section Commands

variable {own : List String} {E : ConfigError → Mode Unit → Prop} (hL : L.Lawful) (hU : U.Lawful)
  (hE : ∀ e m, E e m) (htemp : ∀ file ∈ own, platform.isTemp file = false)
include hL hU hE htemp

theorem obeys_deal_keeper {name : CiphersuiteName} {args : TrustedDealerArgs} {rng : ℕ}
    (hown : ∀ file ∈ args.config, file ∈ own) :
    (deal platform U (L.ciphersuite name) args rng).Obeys
      ((keeper U own (Config.WellFormed L)).monitor platform) E (fun _ _ m => m = ⟨(), none⟩) ()
      ⟨(), none⟩ := by
  unfold deal
  split_ifs
  · exact .fail (hE _ _)
  · exact .fail (hE _ _)
  apply Method.Obeys.bind
  refine .lift (trustedDealerKeygen_neverPanics _ _ _) ?_ fun e _ => hE e _
  rintro ⟨shares, publicKeyPackage⟩ -
  apply Method.Obeys.bind
  have hfirst := Method.Obeys.foldM (E := E) (A := (keeper U own (Config.WellFormed L)).monitor platform)
    (g := readUser U) (b := ([] : List ((L.ciphersuite name).Identifier × Contact)))
    (l := (shares.toSortedList.map Prod.fst).zip (args.config.zip args.names)) (s := ())
    (m := ⟨(), none⟩) (fun left dealt _ m => m = ⟨(), none⟩ ∧ (∀ x ∈ left, x.2.1 ∈ own) ∧
      ∀ x ∈ dealt, x.2.version = none)
    ⟨rfl, fun x hx => hown _ (List.of_mem_zip (List.of_mem_zip hx).2).1, fun _ h => by cases h⟩ ?_
  · refine hfirst.mono (fun _ _ h => h) ?_
    rintro dealt ⟨⟩ _ ⟨rfl, -, hdealt⟩
    have hsecond := Method.Obeys.foldM (E := E)
      (A := (keeper U own (Config.WellFormed L)).monitor platform)
      (g := fun () (x : (L.ciphersuite name).SecretShare × String) =>
        update platform U (some x.2) (storeShareEdit args publicKeyPackage dealt x.1))
      (b := ()) (l := (shares.toSortedList.map Prod.snd).zip args.config) (s := ())
      (m := ⟨(), none⟩) (fun left _ _ m => m = ⟨(), none⟩ ∧ ∀ x ∈ left, x.2 ∈ own)
      ⟨rfl, fun x hx => hown _ (List.of_mem_zip hx).2⟩ ?_
    · exact hsecond.mono (fun _ _ h => h) fun _ _ _ h => h.1
    · rintro ⟨share, file⟩ left ⟨⟩ ⟨⟩ _ ⟨rfl, hleft⟩
      have hfile : Config.parsePath L (some file) ∈ own := hleft (share, file) List.mem_cons_self
      refine (obeys_update_keeper ofContents_wellFormed hE hL hU hfile
        (htemp file hfile) (edits_storeShare _ _ _ _)
        fun config config' h hedit => h.storeShare hL hdealt hedit).mono (fun _ _ h => h) ?_
      exact fun _ _ _ h => ⟨h, fun x hx => hleft x (List.mem_cons_of_mem _ hx)⟩
  · rintro ⟨identifier, file, contactName⟩ left dealt ⟨⟩ _ ⟨rfl, hleft, hdealt⟩
    have hfile : Config.parsePath L (some file) ∈ own := hleft (identifier, file, contactName) List.mem_cons_self
    apply Method.Obeys.bind
    refine (obeys_readConfig_keeper ofContents_wellFormed hE hfile
      (htemp file hfile)).mono (fun _ _ h => h) ?_
    rintro config ⟨⟩ _ ⟨-, -, rfl⟩
    apply Method.Obeys.bind
    refine .lift (Outcome.okOr_ne_panic _ _) (fun key _ => ?_) fun e _ => hE e _
    refine .pure ⟨rfl, fun x hx => hleft x (List.mem_cons_of_mem _ hx), fun x hx => ?_⟩
    rcases List.mem_append.mp hx with hx | hx
    · exact hdealt x hx
    · rw [List.mem_singleton.mp hx]

omit htemp in
theorem obeys_process_keeper {invocation : Invocation L}
    (htemp : ∀ file ∈ invocation.paths, platform.isTemp file = false) :
    (process platform U invocation).Obeys
      ((keeper U invocation.paths (Config.WellFormed L)).monitor platform) E
      (fun _ _ m => m = ⟨(), none⟩) () ⟨(), none⟩ := by
  have hupdate : ∀ {path : Option String} {edit : Config → Outcome ConfigError Config},
      Config.parsePath L path ∈ invocation.paths → Edits edit →
      (∀ config config', config.WellFormed L → edit config = .ok config' → config'.WellFormed L) →
      (update platform U path edit).Obeys
        ((keeper U invocation.paths (Config.WellFormed L)).monitor platform) E
        (fun _ _ m => m = ⟨(), none⟩) () ⟨(), none⟩ := fun hpath hedits hkeeps =>
    obeys_update_keeper ofContents_wellFormed hE hL hU hpath (htemp _ hpath) hedits hkeeps
  cases invocation with
  | init path keypair =>
    exact hupdate (List.mem_singleton_self _) (edits_init keypair) fun _ _ h hedit => h.init hedit
  | importContact text path =>
    exact hupdate (List.mem_singleton_self _) (edits_import L text)
      fun _ _ h hedit => h.importContact hedit
  | removeContact path pubkey =>
    exact hupdate (List.mem_singleton_self _) (edits_remove pubkey) fun _ _ h hedit => h.remove hedit
  | removeGroup path group =>
    exact hupdate (List.mem_singleton_self _) (edits_removeGroup group)
      fun _ _ h hedit => h.removeGroup hedit
  | trustedDealer args rng =>
    apply Method.Obeys.bind
    refine .lift (ciphersuiteOf_neverPanics _) (fun name _ => ?_) fun e _ => hE e _
    exact obeys_deal_keeper hL hU hE htemp fun _ h => h
  | dkg args inputs =>
    apply Method.Obeys.bind
    refine .lift (ciphersuiteOf_neverPanics _) (fun name _ => ?_) fun e _ => hE e _
    have hpath := List.mem_singleton_self (Config.parsePath L args.config)
    apply Method.Obeys.bind
    refine (obeys_readConfig_keeper ofContents_wellFormed hE hpath (htemp _ hpath)).mono
      (fun _ _ h => h) ?_
    rintro config ⟨⟩ _ ⟨-, -, rfl⟩
    apply Method.Obeys.bind
    refine .lift (dkgGroup_neverPanics _ _ _) (fun generated hgenerated => ?_) fun e _ => hE e _
    exact hupdate hpath (edits_storeGroup generated) fun _ _ h hedit => h.storeGroup hL hgenerated hedit

end Commands

variable {ι : Type} [DecidableEq ι] {invocations : ι → Invocation L} {start : Disk}
  {ms : List (Move System ι)} {s : Disk × (ι → Program System (Outcome ConfigError Unit × Unit))}

def AllWellFormed (U : Encoding L) (invocations : ι → Invocation L)
    (files : String → Option Bytes) : Prop :=
  ∀ i, ∀ file ∈ (invocations i).paths, ∀ contents, files file = some contents →
    Holds U (Config.WellFormed L) contents

theorem maintains_wellFormed :
    Maintains platform (fun i => keeper U (invocations i).paths (Config.WellFormed L))
      (fun (_ : List ι) files _ => AllWellFormed U invocations files) where
  finds h _ hfile := h _ _ hfile
  put := by
    rintro order files known i dst contents h - ⟨-, hholds⟩ j file hfile contents' hlookup
    by_cases hdst : file = dst
    · subst hdst
      rw [Function.update_self] at hlookup
      cases hlookup
      exact hholds
    · rw [Function.update_of_ne hdst] at hlookup
      exact h j file hfile contents' hlookup

/-- Commands at the same time, on any config files. At every moment every file can be read, with
contacts under their names and without versions, and groups that can be read. -/
theorem configs_well_formed (hL : L.Lawful) (hU : U.Lawful)
    (htemp : ∀ i, ∀ file ∈ (invocations i).paths, platform.isTemp file = false)
    (hstart : AllWellFormed U invocations start.lookup)
    (h : ((os platform ι).system start fun i => process platform U (invocations i) ()).Run ms s) :
    AllWellFormed U invocations s.1.lookup := by
  have hvisible : ∀ {disk : Disk}, AllWellFormed U invocations (visible platform disk) ↔
      AllWellFormed U invocations disk.lookup := by
    intro disk
    refine forall_congr' fun i => forall₂_congr fun file hfile => ?_
    rw [visible_of_temp_eq_false (htemp i file hfile)]
  have hcoherent : Coherent platform (fun _ files (_ : ι → Unit) => AllWellFormed U invocations files)
      ([] : List (Move System ι)) start fun _ => ⟨(), none⟩ :=
    ⟨nofun, nofun, hvisible.mpr hstart⟩
  obtain ⟨m, hcoherent, -⟩ := hcoherent.run maintains_wellFormed
    (fun i => obeys_process_keeper (E := fun _ _ => True) hL hU (fun _ _ => trivial) (htemp i)) h
    fun _ _ _ => trivial
  exact hvisible.mp hcoherent.known

/-- Two users of one config file. The one that starts first writes last. -/
def sampleSharing : Bool → Invocation sampleToml
  | true => .init (some "a") (some ⟨[], ⟨[1]⟩⟩)
  | false => .init (some "a") (some ⟨[], ⟨[2]⟩⟩)

def sampleSharers : TransitionSystem
    (Disk × (Bool → Program System (Outcome ConfigError Unit × Unit))) (Move System Bool) :=
  (os samplePlatform Bool).system ∅ fun i => process samplePlatform sampleEncoding (sampleSharing i) ()

theorem exists_sample_sharers : ∃ ms s, sampleSharers.Run ms s ∧ s.1.lookup "a" = some [1] ∧
    s.2 = fun _ => .done (.ok (), ()) := by
  have h₀ : sampleSharers.Run [] _ := .start rfl
  have h₁ := run_answer h₀ true rfl (.pathExists (a := false) fun h => absurd h (by decide))
  have h₂ := run_answer h₁ false rfl (.pathExists (a := false) fun h => absurd h (by decide))
  have h₃ := run_answer h₂ true rfl (.isDir (a := false))
  have h₄ := run_answer h₃ true rfl (.createDirAll (a := some ()))
  have h₅ := run_answer h₄ true rfl (.tempfileIn (t := "temp") rfl rfl (by decide))
  have h₆ := run_answer h₅ true rfl (.write (n := 1) rfl (by decide))
  have h₇ := run_answer h₆ false rfl (.isDir (a := false))
  have h₈ := run_answer h₇ false rfl (.createDirAll (a := some ()))
  have h₉ := run_answer h₈ false rfl (.tempfileIn (t := "temp'") rfl rfl (by decide))
  have h₁₀ := run_answer h₉ false rfl (.write (n := 1) rfl (by decide))
  have h₁₁ := run_answer h₁₀ false rfl (.flush (a := some ()))
  have h₁₂ := run_answer h₁₁ false rfl (.persist rfl)
  have h₁₃ := run_answer h₁₂ true rfl (.flush (a := some ()))
  have h₁₄ := run_answer h₁₃ true rfl (.persist rfl)
  refine ⟨_, _, h₁₄, rfl, funext fun i => ?_⟩
  cases i <;> rfl

theorem configs_well_formed_sample :
    ∃ ms s, sampleSharers.Run ms s ∧ s.1.lookup "a" = some [1] ∧
      Holds sampleEncoding (Config.WellFormed sampleToml) [1] := by
  obtain ⟨ms, s, hrun, hlookup, -⟩ := exists_sample_sharers
  have hholds := configs_well_formed sampleToml_lawful (fun _ => rfl) (by decide)
    (fun i file _ contents h => by cases (Map.lookup_empty file).symm.trans h) hrun
  exact ⟨ms, s, hrun, hlookup, hholds true "a" List.mem_cons_self [1] hlookup⟩

end Storage
end FrostTools.Client
