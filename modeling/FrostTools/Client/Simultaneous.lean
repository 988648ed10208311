import FrostTools.Client.Processes

/-!
# Commands at the same time

Users run commands on their config files, and any command can fail or stop at any step. On files of
its own a command leaves what it leaves when it is run alone.
-/

namespace FrostTools.Client.Storage

variable {platform : Platform} {L : Libraries} {U : Encoding L} {C : Ciphersuite}
  {fs fs' : FileSystem L} {path : Option String}

/-- A process that knows what is in its own files, and may put what is allowed there. -/
def tracker (U : Encoding L) (own : List String) (Allowed : FileSystem L → Prop) :
    Access (FileSystem L) where
  finds fs path found := path ∈ own → found = (fs.lookup path).map U.asBytes
  mayPut fs path contents := path ∈ own ∧
    ∃ text, contents = U.asBytes text ∧ Allowed (fs.insert path text)
  put fs path contents :=
    match U.fromUtf8 contents with
    | some text => fs.insert path text
    | none => fs
  mayMiss := False

section Tracker

variable {own : List String} {Allowed : FileSystem L → Prop} {E : ConfigError → Mode (FileSystem L) → Prop}
  (hU : U.Lawful) (hpath : Config.parsePath L path ∈ own)
  (htemp : platform.isTemp (Config.parsePath L path) = false)
include hU hpath htemp

theorem obeys_readConfig (hE : ∀ e, E e ⟨fs, none⟩) :
    (readConfig U path).Obeys ((tracker U own Allowed).monitor platform) E
      (fun config _ m => Config.read fs path = .ok config ∧ m = ⟨fs, none⟩) () ⟨fs, none⟩ := by
  apply Method.Obeys.bind
  refine Method.Obeys.query htemp fun answer hfound => ?_
  obtain _ | answer := answer
  · exact hfound.elim
  obtain ⟨found, hfinds, hmissing⟩ := hfound
  have hfound := hfinds hpath
  dsimp only
  split_ifs with hexists
  · apply Method.Obeys.bind
    refine Method.Obeys.query htemp fun answer hread => ?_
    apply Method.Obeys.bind
    cases answer with
    | none => exact .fail (hE _)
    | some contents =>
      refine .lift (Outcome.okOr_ne_panic _ _) ?_ fun e _ => hE e
      rintro _ ⟨⟩
      obtain ⟨text, htext, rfl⟩ : ∃ text, fs.lookup (Config.parsePath L path) = some text ∧
          U.asBytes text = contents := Option.map_eq_some_iff.mp (hread hpath).symm
      apply Method.Obeys.bind
      refine .lift (Outcome.okOr_ne_panic _ _) (fun text' htext' => ?_) fun e _ => hE e
      rw [Outcome.okOr_eq_ok_iff, hU text, Option.some.injEq] at htext'
      subst htext'
      apply Method.Obeys.bind
      refine .lift (Outcome.okOr_ne_panic _ _) (fun config hconfig => ?_) fun e _ => hE e
      refine .pure ⟨?_, rfl⟩
      rw [Outcome.okOr_eq_ok_iff] at hconfig
      simp only [Config.read, htext, hconfig, Outcome.okOr, Outcome.bind]
  · have hnone : fs.lookup (Config.parsePath L path) = none := by
      rw [hmissing (Bool.eq_false_of_not_eq_true fun h => hexists (congrArg some h))] at hfound
      exact Option.map_eq_none_iff.mp hfound.symm
    refine .pure ⟨?_, rfl⟩
    simp only [Config.read, hnone]

/-- A config is read, and written back with an edit, as in one step. -/
theorem obeys_update {edit : Config → Outcome ConfigError Config} (hedits : Edits edit)
    (hE : ∀ e, E e ⟨fs, none⟩)
    (hallowed : ∀ fs', Config.updateFiles fs path edit = .ok fs' → Allowed fs') :
    (update platform U path edit).Obeys ((tracker U own Allowed).monitor platform) E
      (fun _ _ m => Config.updateFiles fs path edit = .ok m.known ∧ m.temp = none) () ⟨fs, none⟩ := by
  apply Method.Obeys.bind
  refine (obeys_readConfig hU hpath htemp hE).mono (fun _ _ h => h) ?_
  rintro config ⟨⟩ _ ⟨hread, rfl⟩
  apply Method.Obeys.bind
  refine .lift (hedits.neverPanics config) (fun config' hedit => ?_) fun e _ => hE e
  apply Method.Obeys.bind
  refine .lift (Outcome.okOr_ne_panic _ _) (fun text htext => ?_) fun e _ => hE e
  rw [Outcome.okOr_eq_ok_iff] at htext
  have hconfig' : config'.path = some (Config.parsePath L path) :=
    (hedits.path hedit).trans (Config.read_path hread)
  have hupdate : Config.updateFiles fs path edit =
      .ok (fs.insert (Config.parsePath L path) text) := by
    simp only [Config.updateFiles, hread, hedit, Config.write, htext, hconfig', Outcome.bind,
      Outcome.okOr]
  apply Method.Obeys.bind
  refine .lift (Outcome.okOr_ne_panic _ _) (fun file hfile => ?_) fun e _ => hE e
  rw [Outcome.okOr_eq_ok_iff, hconfig', Option.some.injEq] at hfile
  subst hfile
  refine obeys_writeFile ⟨hpath, text, rfl, hallowed _ hupdate⟩ htemp hE ⟨?_, rfl⟩
  change _ = Outcome.ok (match U.fromUtf8 (U.asBytes text) with
    | some text => fs.insert _ text
    | none => fs)
  rw [hU text, hupdate]

end Tracker

/-- What `trusted-dealer` leaves after it has stored some of the shares. -/
def trustedDealerUpTo (C : Ciphersuite) (fs : FileSystem L) (args : TrustedDealerArgs) (rng n : ℕ) :
    Outcome ConfigError (FileSystem L) :=
  (trustedDealerKeygen C args.numSigners args.threshold rng).bind fun (shares, publicKeyPackage) =>
  (firstPass fs (shares.toSortedList.map Prod.fst) args.config args.names).bind fun dealt =>
    Outcome.foldM (storeShare args publicKeyPackage dealt) fs
      (((shares.toSortedList.map Prod.snd).zip args.config).take n)

/-- What a command leaves when it stops at some step: the files that it found, or what it writes in one
step; `trusted-dealer` can stop between two users. -/
def Stage (fs : FileSystem L) : Invocation L → FileSystem L → Prop
  | .trustedDealer args rng, fs' => fs' = fs ∨ ∃ name n, ciphersuiteOf args.ciphersuite = .ok name ∧
      trustedDealerUpTo (L.ciphersuite name) fs args rng n = .ok fs'
  | invocation, fs' => fs' = fs ∨ execute fs invocation = .ok fs'

theorem Stage.refl (fs : FileSystem L) (invocation : Invocation L) : Stage fs invocation fs := by
  cases invocation <;> exact .inl rfl

section Process

variable {E : ConfigError → Mode (FileSystem L) → Prop} {own : List String}
  {Allowed : FileSystem L → Prop} (hU : U.Lawful) (htemp : ∀ file ∈ own, platform.isTemp file = false)
include hU htemp

theorem obeys_readUsers {l : List (C.Identifier × String × String)} (hown : ∀ x ∈ l, x.2.1 ∈ own)
    (hE : ∀ e, E e ⟨fs, none⟩) :
    (Method.foldM (readUser U) [] l).Obeys ((tracker U own Allowed).monitor platform) E
      (fun dealt _ m => Outcome.mapM (fun (identifier, path, name) =>
        (Config.read fs (some path)).bind fun config =>
        (Outcome.okOr (.eyre "config not initialized") config.communicationKey).bind fun key =>
          .ok (identifier, (⟨none, name, key.pubkey⟩ : Contact))) l = .ok dealt ∧ m = ⟨fs, none⟩)
      () ⟨fs, none⟩ := by
  have hfold := Method.Obeys.foldM (E := E) (A := (tracker U own Allowed).monitor platform)
    (g := readUser U) (b := ([] : List (C.Identifier × Contact))) (l := l) (s := ())
    (m := ⟨fs, none⟩) (fun left dealt _ m => m = ⟨fs, none⟩ ∧ ∃ before, before ++ left = l ∧
      Outcome.mapM (fun (identifier, path, name) =>
        (Config.read fs (some path)).bind fun config =>
        (Outcome.okOr (.eyre "config not initialized") config.communicationKey).bind fun key =>
          .ok (identifier, (⟨none, name, key.pubkey⟩ : Contact))) before = .ok dealt)
    ⟨rfl, [], rfl, rfl⟩ ?_
  · refine hfold.mono (fun _ _ h => h) ?_
    rintro dealt ⟨⟩ m ⟨rfl, before, rfl, hdealt⟩
    rw [List.append_nil]
    exact ⟨hdealt, rfl⟩
  · rintro ⟨identifier, path, name⟩ left dealt ⟨⟩ _ ⟨rfl, before, rfl, hdealt⟩
    have hpath : Config.parsePath L (some path) ∈ own :=
      hown (identifier, path, name) (List.mem_append_right _ List.mem_cons_self)
    apply Method.Obeys.bind
    refine (obeys_readConfig hU hpath (htemp path hpath) hE).mono (fun _ _ h => h) ?_
    rintro config ⟨⟩ _ ⟨hread, rfl⟩
    apply Method.Obeys.bind
    refine .lift (Outcome.okOr_ne_panic _ _) (fun key hkey => ?_) fun e _ => hE e
    refine .pure ⟨rfl, before ++ [(identifier, path, name)], List.append_assoc _ _ _, ?_⟩
    rw [Outcome.mapM_eq_ok_iff] at hdealt ⊢
    refine List.rel_append hdealt (.cons ?_ .nil)
    simp only [hread, hkey, Outcome.bind]

omit U hU htemp in
theorem trustedDealerUpTo_length {args : TrustedDealerArgs} {rng n : ℕ}
    {shares : Map C.Identifier C.SecretShare} {publicKeyPackage : C.PublicKeyPackage}
    (hconfig : args.config.length = args.numSigners.toNat)
    (hnames : args.names.length = args.numSigners.toNat)
    (hshares : trustedDealerKeygen C args.numSigners args.threshold rng = .ok (shares, publicKeyPackage))
    (hn : ((shares.toSortedList.map Prod.snd).zip args.config).length ≤ n) :
    trustedDealerUpTo C fs args rng n = trustedDealerForCiphersuite C fs args rng := by
  rw [trustedDealerForCiphersuite, if_neg (not_not.mpr hconfig), if_neg (not_not.mpr hnames),
    trustedDealerUpTo, hshares]
  simp only [Outcome.bind, List.take_of_length_le hn]

/-- `trusted-dealer` stores one share after the other. -/
theorem obeys_deal {args : TrustedDealerArgs} {rng : ℕ} (hown : ∀ file ∈ args.config, file ∈ own)
    (hE : ∀ e m, E e m) (hallowed : ∀ n fs', trustedDealerUpTo C fs args rng n = .ok fs' → Allowed fs') :
    (deal platform U C args rng).Obeys ((tracker U own Allowed).monitor platform) E
      (fun _ _ m => trustedDealerForCiphersuite C fs args rng = .ok m.known) () ⟨fs, none⟩ := by
  unfold deal
  split_ifs with hconfig hnames
  · exact .fail (hE _ _)
  · exact .fail (hE _ _)
  rw [not_not] at hconfig hnames
  apply Method.Obeys.bind
  refine .lift (trustedDealerKeygen_neverPanics _ _ _) ?_ fun e _ => hE e _
  rintro ⟨shares, publicKeyPackage⟩ hshares
  apply Method.Obeys.bind
  have hreads : ∀ x ∈ (shares.toSortedList.map Prod.fst).zip (args.config.zip args.names),
      x.2.1 ∈ own := fun x hx => hown _ (List.of_mem_zip (List.of_mem_zip hx).2).1
  refine (obeys_readUsers hU htemp hreads fun e => hE e _).mono (fun _ _ h => h) ?_
  rintro dealt ⟨⟩ _ ⟨hdealt, rfl⟩
  have hupTo : ∀ n, trustedDealerUpTo C fs args rng n =
      Outcome.foldM (storeShare args publicKeyPackage dealt) fs
        (((shares.toSortedList.map Prod.snd).zip args.config).take n) := by
    intro n
    have hfirst : firstPass fs (shares.toSortedList.map Prod.fst) args.config args.names = .ok dealt :=
      hdealt
    rw [trustedDealerUpTo, hshares]
    simp only [Outcome.bind, hfirst]
  have hfold := Method.Obeys.foldM (E := E) (A := (tracker U own Allowed).monitor platform)
    (g := fun () (x : C.SecretShare × String) =>
      update platform U (some x.2) (storeShareEdit args publicKeyPackage dealt x.1))
    (b := ()) (l := (shares.toSortedList.map Prod.snd).zip args.config) (s := ()) (m := ⟨fs, none⟩)
    (fun left _ _ m => m.temp = none ∧ ∃ n, trustedDealerUpTo C fs args rng n = .ok m.known ∧
      ((shares.toSortedList.map Prod.snd).zip args.config).drop n = left)
    ⟨rfl, 0, hupTo 0, rfl⟩ ?_
  · refine hfold.mono (fun _ _ h => h) ?_
    rintro ⟨⟩ ⟨⟩ m ⟨-, n, hn, hdrop⟩
    rw [← hn, trustedDealerUpTo_length hconfig hnames hshares (List.drop_eq_nil_iff.mp hdrop)]
  · rintro ⟨share, file⟩ left ⟨⟩ ⟨⟩ ⟨known, temp⟩ ⟨rfl, n, hn, hdrop⟩
    have hget : ((shares.toSortedList.map Prod.snd).zip args.config)[n]? = some (share, file) := by
      rw [← List.head?_drop, hdrop]
      rfl
    have hfile : Config.parsePath L (some file) ∈ own := hown _ (List.of_mem_zip (List.mem_of_getElem? hget)).2
    have hnext : ∀ fs', Config.updateFiles known (some file)
        (storeShareEdit args publicKeyPackage dealt share) = .ok fs' →
        trustedDealerUpTo C fs args rng (n + 1) = .ok fs' := by
      intro fs' hupdate
      rw [hupTo] at hn ⊢
      rw [List.take_add_one, hget, Option.toList_some, Outcome.foldM_append_singleton, hn]
      rwa [← storeShare_eq_update] at hupdate
    refine (obeys_update hU hfile (htemp file hfile) (edits_storeShare _ _ _ _)
      (fun e => hE e _) fun fs' hupdate => hallowed _ _ (hnext fs' hupdate)).mono (fun _ _ h => h) ?_
    rintro ⟨⟩ ⟨⟩ m ⟨hupdate, htemp'⟩
    refine ⟨htemp', n + 1, hnext _ hupdate, ?_⟩
    rw [← List.tail_drop, hdrop]
    rfl

omit htemp in
/-- A command on its own files does what it does in one step. -/
theorem obeys_process {invocation : Invocation L}
    (htemp : ∀ file ∈ invocation.paths, platform.isTemp file = false) (hE : ∀ e m, E e m) :
    (process platform U invocation).Obeys
      ((tracker U invocation.paths (Stage fs invocation)).monitor platform) E
      (fun _ _ m => execute fs invocation = .ok m.known) () ⟨fs, none⟩ := by
  have hupdate : ∀ {path : Option String} {edit : Config → Outcome ConfigError Config},
      Edits edit → Config.parsePath L path ∈ invocation.paths →
      execute fs invocation = Config.updateFiles fs path edit →
      (∀ fs', execute fs invocation = .ok fs' → Stage fs invocation fs') →
      (update platform U path edit).Obeys
        ((tracker U invocation.paths (Stage fs invocation)).monitor platform) E
        (fun _ _ m => execute fs invocation = .ok m.known) () ⟨fs, none⟩ := by
    intro path edit hedits hpath heq hstage
    rw [heq] at hstage ⊢
    refine (obeys_update hU hpath (htemp _ hpath) hedits (fun e => hE e _) hstage).mono
      (fun _ _ h => h) ?_
    exact fun _ _ _ h => h.1
  cases invocation with
  | init path keypair =>
    exact hupdate (edits_init keypair) (List.mem_singleton_self _) (init_eq_update keypair)
      fun _ => .inr
  | importContact text path =>
    exact hupdate (edits_import L text) (List.mem_singleton_self _) (importContact_eq_update text)
      fun _ => .inr
  | removeContact path pubkey =>
    exact hupdate (edits_remove pubkey) (List.mem_singleton_self _) (remove_eq_update pubkey)
      fun _ => .inr
  | removeGroup path group =>
    exact hupdate (edits_removeGroup group) (List.mem_singleton_self _) (removeGroup_eq_update group)
      fun _ => .inr
  | trustedDealer args rng =>
    apply Method.Obeys.bind
    refine .lift (ciphersuiteOf_neverPanics _) (fun name hname => ?_) fun e _ => hE e _
    refine (obeys_deal hU htemp (fun _ h => h) hE fun n fs' hn => .inr ⟨name, n, hname, hn⟩).mono
      (fun _ _ h => h) ?_
    rintro ⟨⟩ ⟨⟩ m hdealt
    simp only [execute, trustedDealer, hname, Outcome.bind, hdealt]
  | dkg args inputs =>
    apply Method.Obeys.bind
    refine .lift (ciphersuiteOf_neverPanics _) (fun name hname => ?_) fun e _ => hE e _
    have hpath := List.mem_singleton_self (Config.parsePath L args.config)
    apply Method.Obeys.bind
    refine (obeys_readConfig hU hpath (htemp _ hpath) fun e => hE e _).mono (fun _ _ h => h) ?_
    rintro config ⟨⟩ _ ⟨hread, rfl⟩
    apply Method.Obeys.bind
    refine .lift (dkgGroup_neverPanics _ _ _) (fun generated hgenerated => ?_) fun e _ => hE e _
    refine hupdate (edits_storeGroup generated) hpath ?_ fun _ => .inr
    simp only [execute, dkg, hname, Outcome.bind, dkgForCiphersuite_eq_update, hread, hgenerated]

end Process

variable {ι : Type} [DecidableEq ι] {invocations : ι → Invocation L} {start : Disk}
  {ms : List (Move System ι)} {s : Disk × (ι → Program System (Outcome ConfigError Unit × Unit))}

/-- The files of each command are those of one of its stages, and no other file changes. -/
structure Apart (platform : Platform) (U : Encoding L) (fs : FileSystem L)
    (invocations : ι → Invocation L) (files : String → Option Bytes) (known : ι → FileSystem L) :
    Prop where
  stage : ∀ i, Stage fs (invocations i) (known i)
  own : ∀ i, ∀ file ∈ (invocations i).paths, files file = ((known i).lookup file).map U.asBytes
  other : ∀ file, platform.isTemp file = false → (∀ i, file ∉ (invocations i).paths) →
    files file = (fs.lookup file).map U.asBytes

theorem maintains_apart (hU : U.Lawful)
    (hdisjoint : ∀ i j, i ≠ j → ∀ file ∈ (invocations i).paths, file ∉ (invocations j).paths) :
    Maintains platform (fun i => tracker U (invocations i).paths (Stage fs (invocations i)))
      (fun _ => Apart platform U fs invocations) where
  finds h _ hfile := h.own _ _ hfile
  put := by
    rintro order files known i dst contents h hdst ⟨hown, text, rfl, hstage⟩
    have hput : (tracker U (invocations i).paths (Stage fs (invocations i))).put (known i) dst
        (U.asBytes text) = (known i).insert dst text := by
      change (match U.fromUtf8 (U.asBytes text) with
        | some text => (known i).insert dst text
        | none => known i) = _
      rw [hU text]
    rw [hput]
    refine ⟨fun j => ?_, fun j file hfile => ?_, fun file htemp hnone => ?_⟩
    · by_cases hj : j = i
      · subst hj
        rwa [Function.update_self]
      · rw [Function.update_of_ne hj]
        exact h.stage j
    · by_cases hj : j = i
      · subst hj
        rw [Function.update_self, Map.lookup_insert]
        -- of its own files the process knows what it has put there, and nobody else writes them
        by_cases hdst' : file = dst
        · rw [hdst', Function.update_self, if_pos rfl]
          rfl
        · rw [Function.update_of_ne hdst', if_neg hdst']
          exact h.own j file hfile
      · rw [Function.update_of_ne hj, Function.update_of_ne]
        · exact h.own j file hfile
        · rintro rfl
          exact hdisjoint j i hj file hfile hown
    · rw [Function.update_of_ne]
      · exact h.other file htemp hnone
      · rintro rfl
        exact hnone i hown

/-- Whether a process could not look at a path. -/
def missed : Move System ι → Bool
  | .answers _ ⟨.pathExists _, none⟩ => true
  | _ => false

/-- Commands at the same time, each on config files of its own. However their steps interleave, fail or
stop, every file is the one of a stage of its command, and of the last one if the command returns
without an error. A config file that cannot be looked at would be taken for one that is not there. -/
theorem commands_apart (hU : U.Lawful)
    (htemp : ∀ i, ∀ file ∈ (invocations i).paths, platform.isTemp file = false)
    (hdisjoint : ∀ i j, i ≠ j → ∀ file ∈ (invocations i).paths, file ∉ (invocations j).paths)
    (hstart : ∀ file, platform.isTemp file = false →
      start.lookup file = (fs.lookup file).map U.asBytes)
    (h : ((os platform ι).system start fun i => process platform U (invocations i) ()).Run ms s)
    (hlooks : ∀ move ∈ ms, missed move = false) :
    ∃ left : ι → FileSystem L, (∀ i, Stage fs (invocations i) (left i)) ∧
      (∀ i, ∀ file ∈ (invocations i).paths, s.1.lookup file = ((left i).lookup file).map U.asBytes) ∧
      (∀ file, platform.isTemp file = false → (∀ i, file ∉ (invocations i).paths) →
        s.1.lookup file = (fs.lookup file).map U.asBytes) ∧
      ∀ i o, s.2 i = .done (o, ()) →
        (o = .ok () ∧ execute fs (invocations i) = .ok (left i)) ∨ ∃ e, o = .err e := by
  have hvisible : ∀ {disk : Disk} {file}, platform.isTemp file = false →
      visible platform disk file = disk.lookup file := visible_of_temp_eq_false
  have hcoherent : Coherent platform (fun _ => Apart platform U fs invocations)
      ([] : List (Move System ι)) start fun _ => ⟨fs, none⟩ := by
    refine ⟨nofun, nofun, fun i => .refl fs _, fun i file hfile => ?_, fun file hfile _ => ?_⟩
    · rw [hvisible (htemp i file hfile), hstart file (htemp i file hfile)]
    · rw [hvisible hfile, hstart file hfile]
  -- every process obeys its tracker, whose knowledge is what the command leaves
  obtain ⟨m, hcoherent, hobeys⟩ := hcoherent.run (maintains_apart hU hdisjoint)
    (fun i => obeys_process (E := fun _ _ => True) hU (htemp i) fun _ _ => trivial) h
    fun i path hmem => Bool.noConfusion (hlooks _ hmem)
  have hapart := hcoherent.known
  refine ⟨fun i => (m i).known, hapart.stage, fun i file hfile => ?_, fun file hfile hnone => ?_,
    fun i o hdone => ?_⟩
  · rw [← hapart.own i file hfile, hvisible (htemp i file hfile)]
  · rw [← hapart.other file hfile hnone, hvisible hfile]
  · have hreturned := hobeys i
    rw [hdone] at hreturned
    rcases hreturned with ⟨⟨⟩, hok, hexecute⟩ | ⟨e, herr, -⟩
    · exact .inl ⟨hok, hexecute⟩
    · exact .inr ⟨e, herr⟩

def sampleToml : Libraries := { sampleLibraries with
  Text := UInt8
  tomlToStringPretty := fun config =>
    [1, 2].find? fun key => decide (sampleConfig key = { config with path := none })
  tomlFromStr := fun key => some (sampleConfig key) }

theorem sampleToml_lawful : sampleToml.Lawful where
  toml := by
    intro config key h
    have hkey := List.find?_some h
    exact congrArg some (of_decide_eq_true hkey)
  keyPackage := sampleLibraries_lawful.keyPackage
  publicKeyPackage := sampleLibraries_lawful.publicKeyPackage
  generateWithDealer := sampleLibraries_lawful.generateWithDealer
  ID_ne := sampleLibraries_lawful.ID_ne

def sampleEncoding : Encoding sampleToml where
  asBytes key := [key]
  fromUtf8 contents := contents.head?

def sampleInits : Bool → Invocation sampleToml
  | true => .init (some "a") (some ⟨[], ⟨[1]⟩⟩)
  | false => .init (some "b") (some ⟨[], ⟨[2]⟩⟩)

def sampleProcesses : TransitionSystem
    (Disk × (Bool → Program System (Outcome ConfigError Unit × Unit))) (Move System Bool) :=
  (os samplePlatform Bool).system ∅ fun i => process samplePlatform sampleEncoding (sampleInits i) ()

/-- The second user's command stops before it writes. -/
theorem exists_sample_processes : ∃ ms s, sampleProcesses.Run ms s ∧
    (∀ move ∈ ms, missed move = false) ∧ s.2 true = .done (.ok (), ()) := by
  have h₀ : sampleProcesses.Run [] _ := .start rfl
  have h₁ := run_answer h₀ true rfl (.pathExists (a := false) (by decide))
  have h₂ := run_answer h₁ false rfl (.pathExists (a := false) (by decide))
  have h₃ := run_answer h₂ true rfl (.isDir (a := false))
  have h₄ := run_answer h₃ true rfl (.createDirAll (a := some ()))
  have h₅ := run_answer h₄ true rfl (.tempfileIn (t := "temp") rfl rfl (by decide))
  have h₆ := run_answer h₅ true rfl (.write (n := 1) rfl (by decide))
  have h₇ := run_answer h₆ false rfl (.isDir (a := false))
  have h₈ := run_answer h₇ true rfl (.flush (a := some ()))
  have h₉ := run_answer h₈ true rfl (.persist rfl)
  exact ⟨_, _, h₉, by decide, rfl⟩

theorem commands_apart_sample : ∃ ms s, sampleProcesses.Run ms s ∧ s.1.lookup "a" = some [1] := by
  obtain ⟨ms, s, hrun, hlooks, hdone⟩ := exists_sample_processes
  have hstart : ∀ file, samplePlatform.isTemp file = false → (∅ : Disk).lookup file =
      ((∅ : FileSystem sampleToml).lookup file).map sampleEncoding.asBytes := fun _ _ => rfl
  obtain ⟨left, -, hown, -, hreturned⟩ := commands_apart (fun _ => rfl) (by decide) (by decide) hstart hrun
    hlooks
  refine ⟨ms, s, hrun, ?_⟩
  obtain ⟨-, hleft⟩ | ⟨e, herr⟩ := hreturned true _ hdone
  · rw [hown true "a" List.mem_cons_self, ← Outcome.ok.inj hleft]
    rfl
  · cases herr

end FrostTools.Client.Storage
