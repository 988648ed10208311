import FrostTools.Client.AddressBook

/-!
# What the address book holds

`import` keeps the names and the keys of the contacts apart. `trusted-dealer` stores the contacts
of all the users in the config file of each of them.
-/

namespace FrostTools.Client

variable {L : Libraries} {C : Ciphersuite} {config config' : Config}

namespace Config

/-- Every contact is stored under its name, no two have the same public key, and none has the
user's own. -/
structure BookSound (config : Config) : Prop where
  name : ∀ name contact, config.contact.lookup name = some contact → contact.name = name
  pubkey : ∀ name name' contact contact', config.contact.lookup name = some contact →
    config.contact.lookup name' = some contact' → contact.pubkey = contact'.pubkey → name = name'
  own : ∀ name contact key, config.contact.lookup name = some contact →
    config.communicationKey = some key → contact.pubkey ≠ key.pubkey

structure Unambiguous (config : Config) : Prop where
  contactByPubkey : ∀ name contact, config.contact.lookup name = some contact →
    ∀ contact', config.contactByPubkey contact.pubkey = .ok contact' ↔ contact' = contact
  findByHex : ∀ pubkey name contact, Contact.findByHex config pubkey = some (name, contact) ↔
    config.contact.lookup name = some contact ∧ hexEncode contact.pubkey.bytes = pubkey

end Config

theorem hexEncode_injective : Function.Injective hexEncode := by
  intro bytes bytes' h
  have hdecode := congrArg hexDecode h
  rwa [hexDecode_hexEncode, hexDecode_hexEncode, Option.some.injEq] at hdecode

theorem find?_eq_some_of_unique {α : Type*} {l : List α} {p : α → Bool} {a : α} (ha : a ∈ l)
    (hp : p a = true) (hunique : ∀ b ∈ l, p b = true → b = a) : l.find? p = some a := by
  cases hfind : l.find? p with
  | none => exact absurd hp (List.find?_eq_none.mp hfind a ha)
  | some b => rw [hunique b (List.mem_of_find?_eq_some hfind) (List.find?_some hfind)]

namespace Config.BookSound

theorem eq_of_pubkey (h : config.BookSound) {name name' : String} {contact contact' : Contact}
    (hlookup : config.contact.lookup name = some contact)
    (hlookup' : config.contact.lookup name' = some contact')
    (hpubkey : contact'.pubkey = contact.pubkey) : (name', contact') = (name, contact) := by
  obtain rfl := h.pubkey name' name contact' contact hlookup' hlookup hpubkey
  rw [Option.some.inj (hlookup'.symm.trans hlookup)]

theorem unambiguous (h : config.BookSound) : config.Unambiguous where
  contactByPubkey := by
    intro name contact hlookup contact'
    have hown : some contact.pubkey ≠ config.communicationKey.map CommunicationKey.pubkey := by
      intro heq
      obtain ⟨key, hkey, hpubkey⟩ := Option.map_eq_some_iff.mp heq.symm
      exact h.own name contact key hlookup hkey hpubkey.symm
    have hfind : (config.contact.toSortedList.map Prod.snd).find? (fun c => c.pubkey = contact.pubkey) =
        some contact := by
      apply find?_eq_some_of_unique
      · exact List.mem_map.mpr ⟨(name, contact), Map.mem_toSortedList.mpr hlookup, rfl⟩
      · exact decide_eq_true rfl
      · intro c hc hpubkey
        obtain ⟨⟨name', _⟩, hmem, rfl⟩ := List.mem_map.mp hc
        exact (Prod.mk.inj (h.eq_of_pubkey hlookup (Map.mem_toSortedList.mp hmem)
          (of_decide_eq_true hpubkey))).2
    rw [Config.contactByPubkey, if_neg hown, hfind, Outcome.okOr, Outcome.ok.injEq, eq_comm]
  findByHex := by
    intro pubkey name contact
    rw [Contact.findByHex]
    constructor
    · intro hfind
      have hmem := List.mem_of_find?_eq_some hfind
      exact ⟨Map.mem_toSortedList.mp hmem, by simpa using List.find?_some hfind⟩
    · rintro ⟨hlookup, rfl⟩
      apply find?_eq_some_of_unique
      · exact Map.mem_toSortedList.mpr hlookup
      · exact decide_eq_true rfl
      · rintro ⟨name', contact'⟩ hmem hpubkey
        apply h.eq_of_pubkey hlookup (Map.mem_toSortedList.mp hmem)
        exact congrArg PublicKey.mk (hexEncode_injective (of_decide_eq_true hpubkey))

theorem of_contact_eq (h : config.BookSound) (hcontact : config'.contact = config.contact)
    (hkey : config'.communicationKey = config.communicationKey) : config'.BookSound := by
  refine ⟨?_, ?_, ?_⟩
  · rw [hcontact]
    exact h.name
  · rw [hcontact]
    exact h.pubkey
  · rw [hcontact, hkey]
    exact h.own

theorem generate (h : config.BookSound) {key : CommunicationKey}
    (hfresh : ∀ name contact, config.contact.lookup name = some contact →
      contact.pubkey ≠ key.pubkey) :
    { config with communicationKey := some key }.BookSound := by
  refine ⟨h.name, h.pubkey, ?_⟩
  intro name contact own hlookup hown
  obtain rfl := Option.some.inj hown
  exact hfresh name contact hlookup

theorem insert (h : config.BookSound) {contact : Contact}
    (hpubkey : ∀ name c, config.contact.lookup name = some c → c.pubkey ≠ contact.pubkey)
    (hown : config.communicationKey.map CommunicationKey.pubkey ≠ some contact.pubkey) :
    { config with contact := config.contact.insert contact.name contact }.BookSound := by
  have hcases : ∀ {name c}, (config.contact.insert contact.name contact).lookup name = some c →
      name = contact.name ∧ c = contact ∨ config.contact.lookup name = some c := by
    intro name c hlookup
    rw [Map.lookup_insert] at hlookup
    split_ifs at hlookup with hname
    · exact .inl ⟨hname, (Option.some.inj hlookup).symm⟩
    · exact .inr hlookup
  refine ⟨?_, ?_, ?_⟩
  · intro name c hlookup
    rcases hcases hlookup with ⟨rfl, rfl⟩ | hold
    · rfl
    · exact h.name name c hold
  · intro name name' c c' hlookup hlookup' heq
    rcases hcases hlookup with ⟨rfl, rfl⟩ | hold
    · rcases hcases hlookup' with ⟨rfl, -⟩ | hold'
      · rfl
      · exact absurd heq.symm (hpubkey name' c' hold')
    · rcases hcases hlookup' with ⟨rfl, rfl⟩ | hold'
      · exact absurd heq (hpubkey name c hold)
      · exact h.pubkey name name' c c' hold hold' heq
  · intro name c key hlookup hkey
    rcases hcases hlookup with ⟨rfl, rfl⟩ | hold
    · intro heq
      apply hown
      rw [heq, show config.communicationKey = some key from hkey]
      rfl
    · exact h.own name c key hold hkey

theorem erase (h : config.BookSound) (name : String) :
    { config with contact := config.contact.erase name }.BookSound := by
  have hkept : ∀ {name' c}, (config.contact.erase name).lookup name' = some c →
      config.contact.lookup name' = some c := by
    intro name' c hlookup
    rw [Map.lookup_erase] at hlookup
    split_ifs at hlookup
    exact hlookup
  refine ⟨?_, ?_, ?_⟩
  · intro name' c hlookup
    exact h.name name' c (hkept hlookup)
  · intro name' name'' c c' hlookup hlookup'
    exact h.pubkey name' name'' c c' (hkept hlookup) (hkept hlookup')
  · intro name' c key hlookup
    exact h.own name' c key (hkept hlookup)

end Config.BookSound

/-- The address books of all config files are sound, and the searches in them unambiguous. -/
def BooksSound (fs : FileSystem L) : Prop :=
  ∀ path config, Config.read fs path = .ok config → config.BookSound ∧ config.Unambiguous

def KeepsKeys (fs : FileSystem L) (invocation : Invocation L) : Prop :=
  ∀ fs', execute fs invocation = .ok fs' → ∀ path config config' name contact contact',
    Config.read fs path = .ok config → Config.read fs' path = .ok config' →
    config.contact.lookup name = some contact → config'.contact.lookup name = some contact' →
    contact'.pubkey = contact.pubkey

def FreshKeys (fs : FileSystem L) : Invocation L → Prop
  | .init _ (some key) => ∀ path config, Config.read fs path = .ok config →
      (∀ name contact, config.contact.lookup name = some contact → contact.pubkey ≠ key.pubkey) ∧
      ∀ own, config.communicationKey = some own → own.pubkey ≠ key.pubkey
  | _ => True

def NotDealt (_ : FileSystem L) : Invocation L → Prop
  | .trustedDealer args _ => args.config = []
  | _ => True

section Step

variable {fs fs' : FileSystem L} {path : Option String}

theorem booksSound_iff : BooksSound fs ↔
    ∀ path config, Config.read fs path = .ok config → config.BookSound :=
  ⟨fun h path config hread => (h path config hread).1,
    fun h path config hread => ⟨h path config hread, (h path config hread).unambiguous⟩⟩

theorem Rewrites.booksSound (h : Rewrites fs fs' path config config') (hfs : BooksSound fs)
    (hbook : config.BookSound → config'.BookSound) : BooksSound fs' := by
  rw [booksSound_iff] at hfs ⊢
  intro path' config'' hread
  rw [h.after] at hread
  split_ifs at hread
  · obtain rfl := Outcome.ok.inj hread
    exact hbook (hfs path config h.before)
  · exact hfs path' config'' hread

theorem Rewrites.keepsKeys (h : Rewrites fs fs' path config config')
    (hkept : ∀ name contact contact', config.contact.lookup name = some contact →
      config'.contact.lookup name = some contact' → contact'.pubkey = contact.pubkey)
    {path' : Option String} {before after : Config} {name : String} {contact contact' : Contact}
    (hread : Config.read fs path' = .ok before) (hread' : Config.read fs' path' = .ok after)
    (hlookup : before.contact.lookup name = some contact)
    (hlookup' : after.contact.lookup name = some contact') : contact'.pubkey = contact.pubkey := by
  rw [h.after] at hread'
  split_ifs at hread' with hpath
  · obtain rfl := Outcome.ok.inj hread'
    obtain rfl := Outcome.ok.inj ((read_congr hpath).symm.trans hread |>.symm.trans h.before)
    exact hkept name contact contact' hlookup hlookup'
  · obtain rfl := Outcome.ok.inj (hread.symm.trans hread')
    rw [Option.some.inj (hlookup.symm.trans hlookup')]

/-- A command other than `trusted-dealer` rewrites a file and keeps its address book sound. -/
theorem execute_cases (hL : L.Lawful) {invocation : Invocation L}
    (hdealer : ∀ args rng, invocation ≠ .trustedDealer args rng)
    (h : execute fs invocation = .ok fs') :
    ∃ path config config', Rewrites fs fs' path config config' ∧
      (FreshKeys fs invocation → config.BookSound → config'.BookSound) ∧
      (∀ name contact contact', config.contact.lookup name = some contact →
        config'.contact.lookup name = some contact' → contact'.pubkey = contact.pubkey) ∧
      ∀ name contact, config'.contact.lookup name = some contact →
        config.contact.lookup name = some contact ∨ contact.version = none := by
  -- three of the commands leave the contacts alone
  have hsame : ∀ {config config' : Config}, config'.contact = config.contact →
      (∀ name contact contact', config.contact.lookup name = some contact →
        config'.contact.lookup name = some contact' → contact'.pubkey = contact.pubkey) ∧
      ∀ name contact, config'.contact.lookup name = some contact →
        config.contact.lookup name = some contact ∨ contact.version = none := by
    intro config config' heq
    rw [heq]
    refine ⟨fun name contact contact' hlookup hlookup' => ?_, fun name contact hlookup => .inl hlookup⟩
    rw [Option.some.inj (hlookup.symm.trans hlookup')]
  cases invocation with
  | init path keypair =>
    obtain ⟨config, config', hrewrites, rfl | ⟨-, key, rfl, rfl⟩⟩ := init_cases hL h
    · exact ⟨path, config', config', hrewrites, fun _ => id, hsame rfl⟩
    · exact ⟨path, config, _, hrewrites,
        fun hfresh hbook => hbook.generate (hfresh path config hrewrites.before).1, hsame rfl⟩
  -- `import` refuses a name or a public key that is there, and clears the version
  | importContact text path =>
    obtain ⟨config, contact, -, hname, hpubkey, hown, hrewrites⟩ := importContact_cases hL h
    refine ⟨path, config, _, hrewrites, fun _ hbook => ?_, fun name c c' hlookup hlookup' => ?_,
      fun name c hlookup => ?_⟩
    · have hcleared : ∀ c : Contact, c = { contact with version := none } →
          { config with contact := config.contact.insert c.name c }.BookSound := by
        rintro c rfl
        exact hbook.insert hpubkey hown
      exact hcleared _ rfl
    · rw [Map.lookup_insert] at hlookup'
      split_ifs at hlookup' with heq
      · exact absurd (heq ▸ Map.mem_keys_of_lookup hlookup) hname
      · rw [Option.some.inj (hlookup.symm.trans hlookup')]
    · rw [Map.lookup_insert] at hlookup
      split_ifs at hlookup with heq
      · rw [← Option.some.inj hlookup]
        exact .inr rfl
      · exact .inl hlookup
  | removeContact path pubkey =>
    obtain ⟨config, name, contact, -, hrewrites⟩ := removeContact_ok hL h
    have hkept : ∀ name' c, (config.contact.erase name).lookup name' = some c →
        config.contact.lookup name' = some c := by
      intro name' c hlookup
      rw [Map.lookup_erase] at hlookup
      split_ifs at hlookup
      exact hlookup
    refine ⟨path, config, _, hrewrites, fun _ hbook => hbook.erase name, fun name' c c' hc hc' => ?_,
      fun name' c hc => .inl (hkept name' c hc)⟩
    rw [Option.some.inj (hc.symm.trans (hkept name' c' hc'))]
  | trustedDealer args rng => exact absurd rfl (hdealer args rng)
  | dkg args inputs =>
    obtain ⟨config, key, group, hrewrites, -, -⟩ := dkg_ok hL h
    exact ⟨args.config, config, _, hrewrites, fun _ hbook => hbook.of_contact_eq rfl rfl, hsame rfl⟩
  | removeGroup path group =>
    obtain ⟨config, hrewrites⟩ := removeGroup_cases hL h
    exact ⟨path, config, _, hrewrites, fun _ hbook => hbook.of_contact_eq rfl rfl, hsame rfl⟩

theorem mem_firstPass {identifiers : List C.Identifier} {paths names : List String}
    {dealt : List (C.Identifier × Contact)} (h : firstPass fs identifiers paths names = .ok dealt)
    {identifier : C.Identifier} {contact : Contact} (hmem : (identifier, contact) ∈ dealt) :
    contact.version = none ∧ ∃ path config key, path ∈ paths ∧
      Config.read fs (some path) = .ok config ∧ config.communicationKey = some key ∧
      contact.pubkey = key.pubkey := by
  obtain ⟨⟨identifier', path, name⟩, hzip, hf⟩ := Outcome.exists_of_mem_mapM h hmem
  obtain ⟨config, hread, hf⟩ := Outcome.bind_eq_ok_iff.mp hf
  obtain ⟨key, hkey, hf⟩ := Outcome.bind_eq_ok_iff.mp hf
  obtain ⟨-, rfl⟩ := Prod.mk.inj (Outcome.ok.inj hf)
  exact ⟨rfl, path, config, key, (List.of_mem_zip (List.of_mem_zip hzip).2).1, hread,
    Outcome.okOr_eq_ok_iff.mp hkey, rfl⟩

theorem trustedDealer_lengths (hL : L.Lawful) {args : TrustedDealerArgs} {rng : ℕ}
    (h : trustedDealer fs args rng = .ok fs') :
    args.config.length = args.numSigners.toNat ∧ args.names.length = args.numSigners.toNat := by
  obtain ⟨name, -, h⟩ := Outcome.bind_eq_ok_iff.mp h
  obtain ⟨_, _, _, -, hdeals⟩ := trustedDealerForCiphersuite_cases hL h
  exact ⟨hdeals.config, hdeals.names⟩

theorem length_firstPass {identifiers : List C.Identifier} {paths names : List String}
    {dealt : List (C.Identifier × Contact)} (h : firstPass fs identifiers paths names = .ok dealt) :
    dealt.length = min identifiers.length (min paths.length names.length) := by
  rw [Outcome.length_of_mapM h, List.length_zip, List.length_zip]

/-- The user of one of the files finds itself in its own address book. -/
theorem not_booksSound_of_dealt (hL : L.Lawful) {args : TrustedDealerArgs} {rng : ℕ}
    (h : trustedDealer fs args rng = .ok fs') (hconfig : args.config ≠ []) : ¬BooksSound fs' := by
  obtain ⟨name, shares, publicKeyPackage, dealt, -, hkeygen, hdealt, hafter⟩ := trustedDealer_ok hL h
  obtain ⟨hpaths, hnames⟩ := trustedDealer_lengths hL h
  -- the contact that is added last keeps its name
  have hne : dealt ≠ [] := by
    apply List.ne_nil_of_length_pos
    rw [length_firstPass hdealt, List.length_map, Map.length_toSortedList,
      trustedDealerKeygen_len hL hkeygen, hpaths, hnames, Nat.min_self, Nat.min_self, ← hpaths]
    exact List.length_pos_of_ne_nil hconfig
  obtain ⟨init, ⟨identifier, contact⟩, rfl⟩ := (List.eq_nil_or_concat' dealt).resolve_left hne
  obtain ⟨-, path, config, key, hpath, hread, hkey, hpubkey⟩ :=
    mem_firstPass hdealt (List.mem_append_right init List.mem_cons_self)
  obtain ⟨config', hread', hstored, -⟩ := hafter (some path) config hread
  obtain ⟨verifyingKey, group, -, -, -, rfl⟩ := hstored hpath
  intro hsound
  refine (hsound _ _ hread').1.own contact.name contact key ?_ hkey hpubkey
  apply lookup_addContacts_iff.mpr
  refine .inr ⟨[], ?_, rfl, fun c hc => absurd hc List.not_mem_nil⟩
  rw [List.map_append]
  exact List.suffix_append _ _

/-- Exactly the commands but `trusted-dealer` keep the address books sound, and their keys. -/
theorem notDealt_iff (hL : L.Lawful) {invocation : Invocation L} (hsound : Sound fs)
    (hfs : BooksSound fs) (hfresh : FreshKeys fs invocation) (h : execute fs invocation = .ok fs') :
    NotDealt fs invocation ↔ KeepsKeys fs invocation ∧ BooksSound fs' := by
  by_cases hdealer : ∃ args rng, invocation = .trustedDealer args rng
  · obtain ⟨args, rng, rfl⟩ := hdealer
    constructor
    · intro hnil
      obtain ⟨_, _, _, _, -, -, -, hafter⟩ := trustedDealer_ok hL h
      -- no file is rewritten
      have hread : ∀ path config config', Config.read fs path = .ok config →
          Config.read fs' path = .ok config' → config' = config := by
        intro path config config' hread hread'
        obtain ⟨config'', hread'', -, hsame⟩ := hafter path config hread
        have hnotMem : Config.parsePath L path ∉ args.config := by
          rw [show args.config = [] from hnil]
          exact List.not_mem_nil
        rw [← hsame hnotMem]
        exact Outcome.ok.inj (hread'.symm.trans hread'')
      refine ⟨?_, ?_⟩
      · intro fs'' h'' path config config' name contact contact' hbefore hlater hlookup hlookup'
        obtain rfl := Outcome.ok.inj (h.symm.trans h'')
        rw [hread path config config' hbefore hlater] at hlookup'
        rw [Option.some.inj (hlookup.symm.trans hlookup')]
      · intro path config' hlater
        obtain ⟨config, hbefore, -⟩ := hsound path
        rw [hread path config config' hbefore hlater]
        exact hfs path config hbefore
    · rintro ⟨-, hsound'⟩
      -- a file that was dealt to holds the user's own key as a contact
      by_contra hconfig
      exact not_booksSound_of_dealt hL h hconfig hsound'
  · have hother : ∀ args rng, invocation ≠ .trustedDealer args rng :=
      fun args rng heq => hdealer ⟨args, rng, heq⟩
    obtain ⟨path, config, config', hrewrites, hbook, hkept, -⟩ := execute_cases hL hother h
    apply iff_of_true
    · cases invocation with
      | trustedDealer args rng => exact absurd rfl (hother args rng)
      | _ => trivial
    · refine ⟨?_, hrewrites.booksSound hfs (hbook hfresh)⟩
      intro fs'' h'' path' before after name contact contact' hbefore hafter hlookup hlookup'
      obtain rfl := Outcome.ok.inj (h.symm.trans h'')
      exact hrewrites.keepsKeys hkept hbefore hafter hlookup hlookup'

end Step

theorem booksSound_empty : BooksSound (∅ : FileSystem L) := by
  rw [booksSound_iff]
  intro path config hread
  simp only [Config.read, Map.lookup_empty, Outcome.ok.injEq] at hread
  subst hread
  refine ⟨?_, ?_, ?_⟩
  · intro name contact hlookup
    cases hlookup
  · intro name name' contact contact' hlookup
    cases hlookup
  · intro name contact key hlookup
    cases hlookup

/-- Where the generated keys are fresh, the sequences of commands without a `trusted-dealer` on
some config file are those that keep all address books sound and replace no key in them. -/
theorem address_books_sound_iff (hL : L.Lawful) {invocations : List (Invocation L)}
    {fs : FileSystem L} :
    (((commands L).restrict FreshKeys).restrict NotDealt).Run invocations fs ↔
      ((((commands L).restrict FreshKeys).restrict KeepsKeys).within BooksSound).Run invocations fs := by
  apply TransitionSystem.run_restrict_iff_restrict_within
  · rintro _ rfl
    exact booksSound_empty
  · intro fs invocation fs' hreach hgood hstep
    exact notDealt_iff hL (sound_of_reachable hL hreach.of_restrict) hgood hstep.1 hstep.2

theorem read_insert (fs : FileSystem L) (file : String) (text : L.Text) (path : Option String) :
    Config.read (fs.insert file text) path =
      if Config.parsePath L path = file then
        (Outcome.okOr .library (L.tomlFromStr text)).bind fun config =>
          .ok { config with path := some file }
      else Config.read fs path := by
  unfold Config.read
  dsimp only
  rw [Map.lookup_insert]
  split_ifs with heq
  · rw [heq]
  · rfl

theorem freshKeys_sample : FreshKeys (L := sampleLibraries)
    (Map.insert (∅ : Map String Config) "a" (sampleConfig 1)) (.init (some "b") (some ⟨[], ⟨[2]⟩⟩)) := by
  intro path config hread
  have hcases := (read_insert (L := sampleLibraries) ∅ "a" (sampleConfig 1) path).symm.trans hread
  split_ifs at hcases
  · obtain rfl := Outcome.ok.inj hcases
    refine ⟨fun name contact hlookup => ?_, fun own hown => ?_⟩
    · cases hlookup
    · obtain rfl := Option.some.inj hown
      decide
  · obtain rfl := Outcome.ok.inj hcases
    refine ⟨fun name contact hlookup => ?_, fun own hown => ?_⟩
    · cases hlookup
    · cases hown

theorem freshKeys_empty : FreshKeys (∅ : FileSystem sampleLibraries)
    (.init (some "a") (some ⟨[], ⟨[1]⟩⟩)) := by
  intro path config hread
  obtain rfl := Outcome.ok.inj hread
  refine ⟨fun name contact hlookup => ?_, fun own hown => ?_⟩
  · cases hlookup
  · cases hown

theorem address_books_sound_sample :
    ((((commands sampleLibraries).restrict FreshKeys).restrict KeepsKeys).within BooksSound).Run
      [.init (some "a") (some ⟨[], ⟨[1]⟩⟩), .init (some "b") (some ⟨[], ⟨[2]⟩⟩)] sampleFiles := by
  apply (address_books_sound_iff sampleLibraries_lawful).mp
  have hstart : (((commands sampleLibraries).restrict FreshKeys).restrict NotDealt).Run [] ∅ :=
    .start rfl
  have hone : (((commands sampleLibraries).restrict FreshKeys).restrict NotDealt).Run
      [.init (some "a") (some ⟨[], ⟨[1]⟩⟩)] (Map.insert (∅ : Map String Config) "a" (sampleConfig 1)) :=
    hstart.snoc ⟨trivial, freshKeys_empty, rfl⟩
  exact hone.snoc ⟨trivial, freshKeys_sample, rfl⟩

def sampleDealing (paths : List String) : Invocation sampleLibraries :=
  .trustedDealer ⟨paths, "group", ["alice", "bob"], none, "ed25519", 2, 2⟩ 0

def recordedKey (fs : FileSystem L) (path name : String) : Option PublicKey :=
  match Config.read fs (some path) with
  | .ok config => (config.contact.lookup name).map Contact.pubkey
  | _ => none

theorem sample_run {fs : FileSystem sampleLibraries} {paths : List String}
    (h : execute sampleFiles (sampleDealing paths) = .ok fs) :
    ((commands sampleLibraries).restrict FreshKeys).Run
      [.init (some "a") (some ⟨[], ⟨[1]⟩⟩), .init (some "b") (some ⟨[], ⟨[2]⟩⟩), sampleDealing paths]
      fs := by
  have hstart : ((commands sampleLibraries).restrict FreshKeys).Run [] ∅ := .start rfl
  have hone : ((commands sampleLibraries).restrict FreshKeys).Run
      [.init (some "a") (some ⟨[], ⟨[1]⟩⟩)] (Map.insert (∅ : Map String Config) "a" (sampleConfig 1)) :=
    hstart.snoc ⟨freshKeys_empty, rfl⟩
  exact (hone.snoc ⟨freshKeys_sample, rfl⟩).snoc ⟨trivial, h⟩

theorem recordedKey_of_keepsKeys {fs fs' : FileSystem L} {invocation : Invocation L}
    {path name : String} {pubkey pubkey' : PublicKey} (h : KeepsKeys fs invocation)
    (hstep : execute fs invocation = .ok fs') (hbefore : recordedKey fs path name = some pubkey)
    (hafter : recordedKey fs' path name = some pubkey') : pubkey' = pubkey := by
  unfold recordedKey at hbefore hafter
  split at hbefore
  · next config hread =>
    split at hafter
    · next config' hread' =>
      obtain ⟨contact, hlookup, rfl⟩ := Option.map_eq_some_iff.mp hbefore
      obtain ⟨contact', hlookup', rfl⟩ := Option.map_eq_some_iff.mp hafter
      exact h fs' hstep (some path) config config' name contact contact' hread hread' hlookup hlookup'
    · cases hafter
  · cases hbefore

/-- A dealing tells a user about itself, and a second one gives a name to another user. -/
theorem dealing_breaks_books :
    (∃ invocations fs, ((commands sampleLibraries).restrict FreshKeys).Run invocations fs ∧
      ¬BooksSound fs) ∧
    ∃ invocations fs invocation fs', ((commands sampleLibraries).restrict FreshKeys).Run invocations fs ∧
      FreshKeys fs invocation ∧ execute fs invocation = .ok fs' ∧ ¬KeepsKeys fs invocation := by
  obtain ⟨fs, hfs⟩ := Outcome.isOk_iff.mp
    (show (execute sampleFiles (sampleDealing ["a", "b"])).isOk = true by decide)
  obtain ⟨fs', hfs'⟩ := Outcome.isOk_iff.mp
    (show ((execute sampleFiles (sampleDealing ["a", "b"])).bind fun fs =>
      execute fs (sampleDealing ["b", "a"])).isOk = true by decide)
  have hbefore : ((execute sampleFiles (sampleDealing ["a", "b"])).bind fun fs =>
      (.ok (recordedKey fs "a" "alice") : Outcome ConfigError _)) = .ok (some ⟨[1]⟩) := by decide
  have hafter : (((execute sampleFiles (sampleDealing ["a", "b"])).bind fun fs =>
      execute fs (sampleDealing ["b", "a"])).bind fun fs =>
      (.ok (recordedKey fs "a" "alice") : Outcome ConfigError _)) = .ok (some ⟨[2]⟩) := by decide
  rw [hfs'] at hafter
  rw [hfs] at hbefore hfs'
  have hsecond : execute fs (sampleDealing ["b", "a"]) = .ok fs' := hfs'
  refine ⟨⟨_, fs, sample_run hfs, ?_⟩, _, fs, sampleDealing ["b", "a"], fs', sample_run hfs, trivial,
    hsecond, fun hkeeps => ?_⟩
  · exact not_booksSound_of_dealt sampleLibraries_lawful hfs (List.cons_ne_nil _ _)
  · have heq := recordedKey_of_keepsKeys hkeeps hsecond (Outcome.ok.inj hbefore) (Outcome.ok.inj hafter)
    exact absurd heq (by decide)

end FrostTools.Client
