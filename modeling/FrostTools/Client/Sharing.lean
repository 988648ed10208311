import FrostTools.Client.Contacts

/-!
# Sharing contacts

`export` and `contacts` print contacts as text strings, which other users import. A string is
accepted only with a format version, and a stored contact has none.
-/

namespace FrostTools.Client

variable {L : Libraries}

structure ContactEncoder where
  postcardToAllocvec : Contact → Option Bytes
  /-- With the Bech32m checksum. -/
  bech32Encode : String → Bytes → Option String

structure ContactEncoder.Lawful (E : ContactEncoder) (L : Libraries) : Prop where
  postcard {contact : Contact} {bytes : Bytes} : E.postcardToAllocvec contact = some bytes →
    L.postcardContact bytes = some contact
  bech32 {hrp text : String} {bytes : Bytes} : E.bech32Encode hrp bytes = some text →
    L.bech32Decode text = some (hrp, bytes)

/-- What a command prints. A contact string comes with its contact. -/
inductive Line where
  | message (text : String)
  | contact (contact : Contact) (text : String)
  deriving DecidableEq

namespace Contact

variable (E : ContactEncoder)

def asHumanReadableSummary (contact : Contact) : String :=
  "Name: " ++ contact.name ++ "\nPublic Key: " ++ hexEncode contact.pubkey.bytes ++ "\n"

def asText (contact : Contact) : Outcome ConfigError String :=
  (Outcome.okOr .library (E.postcardToAllocvec contact)).bind fun bytes =>
    Outcome.okOr .library (E.bech32Encode "zffrost" bytes)

def exportContact (fs : FileSystem L) (name : String) (path : Option String) :
    List Line × Outcome ConfigError Unit :=
  match (Config.read fs path).bind fun config =>
      Outcome.okOr (.eyre "pubkey not generated yet") config.communicationKey with
  | .ok key =>
    let contact : Contact := ⟨some 0, name, key.pubkey⟩
    let before := [.message "Exporting this information:\n", .message contact.asHumanReadableSummary,
      .message ("Check if contains the expected information. If it does, copy the following " ++
        "contact string and send to other participants you want to use FROST with:\n")]
    match contact.asText E with
    | .ok text => (before ++ [.contact contact text], .ok ())
    | .err e => (before, .err e)
    | .panic message => (before, .panic message)
  | .err e => ([], .err e)
  | .panic message => ([], .panic message)

/-- Prints contacts, up to the first one that cannot be encoded. -/
def listAll : List Contact → List Line × Outcome ConfigError Unit
  | [] => ([], .ok ())
  | contact :: contacts =>
    match contact.asText E with
    | .ok text =>
      let (lines, r) := listAll contacts
      (.message contact.asHumanReadableSummary :: .contact contact text :: .message "\n" :: lines, r)
    | .err e => ([.message contact.asHumanReadableSummary], .err e)
    | .panic message => ([.message contact.asHumanReadableSummary], .panic message)

def list (fs : FileSystem L) (path : Option String) : List Line × Outcome ConfigError Unit :=
  match Config.read fs path with
  | .ok config => listAll E (config.contact.toSortedList.map Prod.snd)
  | .err e => ([], .err e)
  | .panic message => ([], .panic message)

end Contact

inductive Showing where
  | exportContact (name : String) (config : Option String)
  | contacts (config : Option String)
  deriving DecidableEq

def Showing.lines (E : ContactEncoder) (fs : FileSystem L) : Showing → List Line
  | .exportContact name config => (Contact.exportContact E fs name config).1
  | .contacts config => (Contact.list E fs config).1

/-- Whoever has neither the name nor the public key can import the contact from the string. -/
structure Importable (L : Libraries) (contact : Contact) (text : String) : Prop where
  fromText : ∃ c, Contact.fromText L text = .ok c ∧ c.name = contact.name ∧
    c.pubkey = contact.pubkey
  importContact : ∀ (fs : FileSystem L) path config, Config.read fs path = .ok config →
    contact.name ∉ config.contact.keys →
    (∀ name c, config.contact.lookup name = some c → c.pubkey ≠ contact.pubkey) →
    config.communicationKey.map CommunicationKey.pubkey ≠ some contact.pubkey →
    Contact.importContact fs text path = { config with
      contact := config.contact.insert contact.name ⟨none, contact.name, contact.pubkey⟩ }.write fs

variable {E : ContactEncoder} {fs : FileSystem L} {contact : Contact} {text : String}

theorem mem_exportContact_iff {name : String} {path : Option String} :
    .contact contact text ∈ (Contact.exportContact E fs name path).1 ↔
      ∃ config key, Config.read fs path = .ok config ∧ config.communicationKey = some key ∧
        contact = ⟨some 0, name, key.pubkey⟩ ∧ contact.asText E = .ok text := by
  constructor
  · intro h
    unfold Contact.exportContact at h
    split at h
    · next key hkey =>
      obtain ⟨config, hread, hkey⟩ := Outcome.bind_eq_ok_iff.mp hkey
      dsimp only at h
      split at h
      · next text' htext =>
        rcases List.mem_append.mp h with hbefore | hlast
        · simp at hbefore
        · obtain ⟨rfl, rfl⟩ := Line.contact.inj (List.mem_singleton.mp hlast)
          exact ⟨config, key, hread, Outcome.okOr_eq_ok_iff.mp hkey, rfl, htext⟩
      · simp at h
      · simp at h
    · exact absurd h List.not_mem_nil
    · exact absurd h List.not_mem_nil
  · rintro ⟨config, key, hread, hkey, rfl, htext⟩
    simp only [Contact.exportContact, hread, hkey, Outcome.okOr, Outcome.bind, htext]
    exact List.mem_append_right _ List.mem_cons_self

theorem mem_listAll {contacts : List Contact}
    (h : .contact contact text ∈ (Contact.listAll E contacts).1) :
    contact ∈ contacts ∧ contact.asText E = .ok text := by
  induction contacts with
  | nil => exact absurd h List.not_mem_nil
  | cons c contacts ih =>
    unfold Contact.listAll at h
    split at h
    · next text' htext =>
      rcases List.mem_cons.mp h with heq | h₁
      · cases heq
      rcases List.mem_cons.mp h₁ with heq | h₂
      · obtain ⟨rfl, rfl⟩ := Line.contact.inj heq
        exact ⟨List.mem_cons_self, htext⟩
      rcases List.mem_cons.mp h₂ with heq | h₃
      · cases heq
      · exact ⟨List.mem_cons_of_mem c (ih h₃).1, (ih h₃).2⟩
    · cases List.mem_singleton.mp h
    · cases List.mem_singleton.mp h

theorem mem_list {path : Option String} (h : .contact contact text ∈ (Contact.list E fs path).1) :
    contact.asText E = .ok text ∧ ∃ config name, Config.read fs path = .ok config ∧
      config.contact.lookup name = some contact := by
  unfold Contact.list at h
  split at h
  · next config hread =>
    obtain ⟨hmem, htext⟩ := mem_listAll h
    obtain ⟨⟨name, _⟩, hentry, rfl⟩ := List.mem_map.mp hmem
    exact ⟨htext, config, name, hread, Map.mem_toSortedList.mp hentry⟩
  · exact absurd h List.not_mem_nil
  · exact absurd h List.not_mem_nil

theorem fromText_asText (hE : E.Lawful L) (h : contact.asText E = .ok text) :
    Contact.fromText L text = if contact.version ≠ some 0 then
      .err (.eyre "invalid contact version") else .ok contact := by
  obtain ⟨bytes, hbytes, htext⟩ := Outcome.bind_eq_ok_iff.mp h
  rw [Outcome.okOr_eq_ok_iff] at hbytes htext
  simp only [Contact.fromText, hE.bech32 htext, hE.postcard hbytes, Outcome.okOr, Outcome.bind,
    ne_eq, not_true_eq_false, if_false]

theorem importContact_eq (htext : Contact.fromText L text = .ok contact) {path : Option String}
    {config : Config} (hread : Config.read fs path = .ok config)
    (hname : contact.name ∉ config.contact.keys)
    (hpubkey : ∀ name c, config.contact.lookup name = some c → c.pubkey ≠ contact.pubkey)
    (hown : config.communicationKey.map CommunicationKey.pubkey ≠ some contact.pubkey) :
    Contact.importContact fs text path = { config with
      contact := config.contact.insert contact.name { contact with version := none } }.write fs := by
  have hany : ¬((config.contact.toSortedList.map Prod.snd).any fun c => c.pubkey = contact.pubkey) =
      true := by
    rw [List.any_eq_true]
    rintro ⟨c, hc, heq⟩
    obtain ⟨⟨name, _⟩, hmem, rfl⟩ := List.mem_map.mp hc
    exact hpubkey name _ (Map.mem_toSortedList.mp hmem) (of_decide_eq_true heq)
  simp only [Contact.importContact, hread, htext, Outcome.bind]
  rw [if_neg hname, if_neg hany, if_neg hown]

theorem importable_iff (hE : E.Lawful L) (h : contact.asText E = .ok text) :
    Importable L contact text ↔ contact.version = some 0 := by
  have hread := fromText_asText hE h
  constructor
  · intro himportable
    by_contra hversion
    obtain ⟨c, hc, -⟩ := himportable.fromText
    rw [hread, if_pos hversion] at hc
    exact Outcome.err_ne_ok _ _ hc
  · intro hversion
    rw [if_neg (not_not.mpr hversion)] at hread
    refine ⟨⟨contact, hread, rfl, rfl⟩, ?_⟩
    intro fs path config hconfig hname hpubkey hown
    exact importContact_eq hread hconfig hname hpubkey hown

def VersionsCleared (fs : FileSystem L) : Prop :=
  ∀ path config name contact, Config.read fs path = .ok config →
    config.contact.lookup name = some contact → contact.version = none

theorem versionsCleared_execute (hL : L.Lawful) {fs' : FileSystem L} {invocation : Invocation L}
    (hsound : Sound fs) (hfs : VersionsCleared fs) (h : execute fs invocation = .ok fs') :
    VersionsCleared fs' := by
  intro path config' name contact hread' hlookup
  by_cases hdealer : ∃ args rng, invocation = .trustedDealer args rng
  · obtain ⟨args, rng, rfl⟩ := hdealer
    obtain ⟨_, shares, publicKeyPackage, dealt, -, -, hdealt, hafter⟩ := trustedDealer_ok hL h
    obtain ⟨config, hread, -⟩ := hsound path
    obtain ⟨config'', hread'', hstored, hsame⟩ := hafter path config hread
    obtain rfl := Outcome.ok.inj (hread'.symm.trans hread'')
    by_cases hpath : Config.parsePath L path ∈ args.config
    · obtain ⟨verifyingKey, group, -, -, -, rfl⟩ := hstored hpath
      rcases lookup_addContacts_iff.mp hlookup with ⟨hold, -⟩ | ⟨after, hsuffix, -, -⟩
      · exact hfs path config name contact hread hold
      · obtain ⟨⟨identifier, _⟩, hmem, rfl⟩ := List.mem_map.mp (hsuffix.mem List.mem_cons_self)
        exact (mem_firstPass hdealt hmem).1
    · rw [hsame hpath] at hlookup
      exact hfs path config name contact hread hlookup
  · obtain ⟨path', before, after, hrewrites, -, -, hcontacts⟩ :=
      execute_cases hL (fun args rng heq => hdealer ⟨args, rng, heq⟩) h
    rw [hrewrites.after] at hread'
    split_ifs at hread'
    · obtain rfl := Outcome.ok.inj hread'
      rcases hcontacts name contact hlookup with hold | hversion
      · exact hfs path' before name contact hrewrites.before hold
      · exact hversion
    · exact hfs path config' name contact hread' hlookup

theorem versionsCleared_of_reachable (hL : L.Lawful) (h : (commands L).Reachable fs) :
    VersionsCleared fs := by
  refine h.invariant ?_ ?_
  · rintro _ rfl path config name contact hread hlookup
    simp only [Config.read, Map.lookup_empty, Outcome.ok.injEq] at hread
    subst hread
    cases hlookup
  · exact fun _ _ _ hreach hcleared hstep =>
      versionsCleared_execute hL (sound_of_reachable hL hreach) hcleared hstep

/-- The strings that `export` prints can be imported, and no others. -/
theorem shown_importable_iff (hL : L.Lawful) (hE : E.Lawful L) (hreach : (commands L).Reachable fs)
    {showing : Showing} (h : .contact contact text ∈ showing.lines E fs) :
    Importable L contact text ↔ ∃ name config, showing = .exportContact name config := by
  cases showing with
  | exportContact name config =>
    obtain ⟨_, key, -, -, rfl, htext⟩ := mem_exportContact_iff.mp h
    exact iff_of_true ((importable_iff hE htext).mpr rfl) ⟨name, config, rfl⟩
  | contacts path =>
    obtain ⟨htext, config, name, hread, hlookup⟩ := mem_list h
    have hversion := versionsCleared_of_reachable hL hreach path config name contact hread hlookup
    apply iff_of_false
    · rw [importable_iff hE htext, hversion]
      exact Option.some_ne_none 0 ∘ Eq.symm
    · rintro ⟨_, _, heq⟩
      cases heq

def sampleExported : Contact := ⟨some 0, "alice", ⟨[1]⟩⟩

def sampleStored : Contact := ⟨none, "alice", ⟨[1]⟩⟩

def sampleEncoder : ContactEncoder where
  postcardToAllocvec contact :=
    if contact = sampleExported then some [1, 0, 5, 97, 108, 105, 99, 101, 1, 1]
    else if contact = sampleStored then some [0, 5, 97, 108, 105, 99, 101, 1, 1]
    else none
  bech32Encode hrp bytes :=
    if hrp = "zffrost" ∧ bytes = [1, 0, 5, 97, 108, 105, 99, 101, 1, 1] then
      some "zffrost1qyqq2ctvd93k2qgpw8jxfm"
    else if hrp = "zffrost" ∧ bytes = [0, 5, 97, 108, 105, 99, 101, 1, 1] then
      some "zffrost1qqzkzmrfvdjszqgajuh84"
    else none

def sampleSharing : Libraries := { sampleLibraries with
  bech32Decode := fun text =>
    if text = "zffrost1qyqq2ctvd93k2qgpw8jxfm" then
      some ("zffrost", [1, 0, 5, 97, 108, 105, 99, 101, 1, 1])
    else if text = "zffrost1qqzkzmrfvdjszqgajuh84" then
      some ("zffrost", [0, 5, 97, 108, 105, 99, 101, 1, 1])
    else none
  postcardContact := fun bytes =>
    if bytes = [1, 0, 5, 97, 108, 105, 99, 101, 1, 1] then some sampleExported
    else if bytes = [0, 5, 97, 108, 105, 99, 101, 1, 1] then some sampleStored
    else none }

theorem sampleSharing_lawful : sampleSharing.Lawful where
  toml := sampleLibraries_lawful.toml
  keyPackage := sampleLibraries_lawful.keyPackage
  publicKeyPackage := sampleLibraries_lawful.publicKeyPackage
  generateWithDealer := sampleLibraries_lawful.generateWithDealer
  ID_ne := sampleLibraries_lawful.ID_ne

theorem sampleEncoder_lawful : sampleEncoder.Lawful sampleSharing where
  postcard {contact bytes} h := by
    simp only [sampleEncoder] at h
    split_ifs at h with hexported hstored
    · rw [hexported, ← Option.some.inj h]
      rfl
    · rw [hstored, ← Option.some.inj h]
      rfl
  bech32 {hrp text bytes} h := by
    simp only [sampleEncoder] at h
    split_ifs at h with hexported hstored
    · rw [hexported.1, hexported.2, ← Option.some.inj h]
      rfl
    · rw [hstored.1, hstored.2, ← Option.some.inj h]
      rfl

def sampleImporting : List (Invocation sampleSharing) :=
  [.init (some "a") (some ⟨[], ⟨[1]⟩⟩), .init (some "b") (some ⟨[], ⟨[2]⟩⟩),
    .importContact "zffrost1qyqq2ctvd93k2qgpw8jxfm" (some "b")]

theorem shown_importable_sample :
    Importable sampleSharing sampleExported "zffrost1qyqq2ctvd93k2qgpw8jxfm" := by
  have hkey : (Outcome.foldM execute (∅ : FileSystem sampleSharing) sampleImporting).bind (fun fs =>
      (Config.read fs (some "a")).bind fun config =>
        Outcome.okOr .library config.communicationKey) = .ok ⟨[], ⟨[1]⟩⟩ := by decide
  obtain ⟨fs, hfs, hconfig⟩ := Outcome.bind_eq_ok_iff.mp hkey
  obtain ⟨config, hread, hkey⟩ := Outcome.bind_eq_ok_iff.mp hconfig
  have hmem : .contact sampleExported "zffrost1qyqq2ctvd93k2qgpw8jxfm" ∈
      (Showing.exportContact "alice" (some "a")).lines sampleEncoder fs :=
    mem_exportContact_iff.mpr
      ⟨config, ⟨[], ⟨[1]⟩⟩, hread, Outcome.okOr_eq_ok_iff.mp hkey, rfl, by decide⟩
  exact (shown_importable_iff sampleSharing_lawful sampleEncoder_lawful
    ⟨_, run_of_foldM (.start rfl) hfs⟩ hmem).mpr ⟨"alice", some "a", rfl⟩

/-- The listing shows a contact as a string that nobody can import. -/
theorem listed_not_importable : ∃ (fs : FileSystem sampleSharing) (contact : Contact) (text : String),
    (commands sampleSharing).Reachable fs ∧
    .contact contact text ∈ (Showing.contacts (some "b")).lines sampleEncoder fs ∧
    ¬Importable sampleSharing contact text := by
  have hshown : (Outcome.foldM execute (∅ : FileSystem sampleSharing) sampleImporting).bind
      (fun fs => (.ok ((Showing.contacts (some "b")).lines sampleEncoder fs) :
        Outcome ConfigError (List Line))) = .ok [.message "Name: alice\nPublic Key: 01\n",
      .contact sampleStored "zffrost1qqzkzmrfvdjszqgajuh84", .message "\n"] := by decide
  obtain ⟨fs, hfs, hlines⟩ := Outcome.bind_eq_ok_iff.mp hshown
  have hmem : .contact sampleStored "zffrost1qqzkzmrfvdjszqgajuh84" ∈
      (Showing.contacts (some "b")).lines sampleEncoder fs := by
    rw [Outcome.ok.inj hlines]
    exact List.mem_cons_of_mem _ List.mem_cons_self
  refine ⟨fs, sampleStored, _, ⟨_, run_of_foldM (.start rfl) hfs⟩, hmem, ?_⟩
  rw [importable_iff sampleEncoder_lawful (mem_list hmem).1]
  exact Option.some_ne_none 0 ∘ Eq.symm

end FrostTools.Client
