import FrostTools.TrustedDealer.Inputs

/-!
# Which shares the trusted dealer puts out

Every share can be read back as long as the paths lead to different files. A template without a
placeholder, `-` for one, names a single path for all shares.
-/

namespace FrostTools.TrustedDealer

variable {C : Ciphersuite} {paths : Paths} {args : Args} {out out' : Output}
  {keys : Map C.Identifier C.SecretShare} {pubkeys : C.PublicKeyPackage}

theorem keyPackagePath_injective {template : String}
    (h : ['\x7b', '\x7d'] <:+: template.toList) : Function.Injective (keyPackagePath template) := by
  intro i j heq
  have hfill := fill_injective (placeholders_pos_iff.mpr h) (String.ofList_injective heq)
  have hdigits : Nat.toDigits 10 (i + 1) = Nat.toDigits 10 (j + 1) := by
    rw [← Nat.toList_repr, ← Nat.toList_repr]
    exact hfill
  have hsucc := congrArg (fun cs => Nat.ofDigitChars 10 cs 0) hdigits
  simp only [Nat.ofDigitChars_toDigits (b := 10) (by decide) (by decide)] at hsucc
  exact Nat.succ.inj hsucc

theorem keyPackagePath_eq {template : String} (h : ¬['\x7b', '\x7d'] <:+: template.toList)
    (i : ℕ) : keyPackagePath template i = template := by
  rw [← placeholders_pos_iff, Nat.not_lt, Nat.le_zero] at h
  rw [keyPackagePath, fill_of_placeholders_eq_zero _ h, String.ofList_toList]

theorem write_eq_ok_iff {path json : String} :
    out.write paths path json = .ok out' ↔ paths.canWrite path = true ∧
      out' = { out with writes := out.writes ++ [(paths.resolve path, json)] } := by
  unfold Output.write
  split_ifs with h
  · simp [h, eq_comm]
  · simp [h]

theorem of_foldM_writeShare {l : List ((C.Identifier × C.SecretShare) × ℕ)}
    (h : Outcome.foldM (writeShare paths args) out l = .ok out') :
    ∃ written, out' = { out with writes := out.writes ++ written } ∧
      written.map (fun w => (w.1, some w.2)) =
        l.map fun p => (paths.resolve (keyPackagePath args.keyPackage p.2), C.shareToJson p.1.2) := by
  induction l generalizing out with
  | nil =>
    rw [← Outcome.ok.inj h]
    exact ⟨[], by rw [List.append_nil], rfl⟩
  | cons p l ih =>
    obtain ⟨out₁, hfirst, hrest⟩ := Outcome.bind_eq_ok_iff.mp h
    obtain ⟨json, hjson, hwrite⟩ := Outcome.bind_eq_ok_iff.mp hfirst
    rw [Outcome.okOr_eq_ok_iff] at hjson
    obtain ⟨-, rfl⟩ := write_eq_ok_iff.mp hwrite
    obtain ⟨written, rfl, hwritten⟩ := ih hrest
    refine ⟨(paths.resolve (keyPackagePath args.keyPackage p.2), json) :: written, ?_, ?_⟩
    · rw [List.append_assoc, List.singleton_append]
    · rw [List.map_cons, List.map_cons, hwritten, hjson]

theorem of_foldM_printShare {l : List (C.Identifier × C.SecretShare)}
    (h : Outcome.foldM printShare out l = .ok out') :
    out'.writes = out.writes ∧ (∀ line ∈ out.lines, line ∈ out'.lines) ∧
      ∀ p ∈ l, ∃ json, C.shareToJson p.2 = some json ∧ "Secret share:\n" ++ json ∈ out'.lines := by
  induction l generalizing out with
  | nil =>
    rw [← Outcome.ok.inj h]
    exact ⟨rfl, fun _ hline => hline, fun p hp => absurd hp List.not_mem_nil⟩
  | cons p l ih =>
    obtain ⟨out₁, hfirst, hrest⟩ := Outcome.bind_eq_ok_iff.mp h
    unfold printShare at hfirst
    cases hjson : C.shareToJson p.2 with
    | none =>
      rw [hjson] at hfirst
      cases hfirst
    | some json =>
      rw [hjson] at hfirst
      obtain ⟨hwrites, hlines, hshares⟩ := ih hrest
      rw [← Outcome.ok.inj hfirst] at hwrites hlines
      refine ⟨hwrites, ?_, ?_⟩
      · intro line hline
        exact hlines line (List.mem_append_left _ (List.mem_append_left _ hline))
      · intro q hq
        rcases List.mem_cons.mp hq with rfl | hq
        · exact ⟨json, hjson, hlines _ (List.mem_append_right _ List.mem_cons_self)⟩
        · exact hshares q hq

/-- The paths with the texts that are written to them. -/
def Args.plan (args : Args) (keys : Map C.Identifier C.SecretShare) (pubkeys : C.PublicKeyPackage) :
    List (String × Option String) :=
  (args.publicKeyPackage, C.publicKeyPackageToJson pubkeys) ::
    keys.toSortedList.zipIdx.map fun p => (keyPackagePath args.keyPackage p.2, C.shareToJson p.1.2)

/-- Without `cli` the writes are those of the plan, and nothing is printed. -/
theorem writes_of_printValues (hcli : ¬args.cli = true)
    (h : printValues paths args keys pubkeys ⟨[], []⟩ = .ok out) : out.lines = [] ∧
      out.writes.map (fun w => (w.1, some w.2)) =
        (args.plan keys pubkeys).map fun w => (paths.resolve w.1, w.2) := by
  obtain ⟨json, hjson, hprinted⟩ := Outcome.bind_eq_ok_iff.mp h
  rw [Outcome.okOr_eq_ok_iff] at hjson
  rw [if_neg hcli] at hprinted
  obtain ⟨out₁, hwrite, hrest⟩ := Outcome.bind_eq_ok_iff.mp hprinted
  obtain ⟨-, rfl⟩ := write_eq_ok_iff.mp hwrite
  obtain ⟨written, rfl, hwritten⟩ := of_foldM_writeShare hrest
  refine ⟨rfl, ?_⟩
  rw [Args.plan, List.map_cons, List.map_map, hjson]
  exact congrArg _ hwritten

theorem exists_mem_plan {identifier : C.Identifier} {share : C.SecretShare}
    (h : keys.lookup identifier = some share) :
    ∃ path, (path, C.shareToJson share) ∈ args.plan keys pubkeys := by
  obtain ⟨i, hi⟩ := List.mem_iff_getElem?.mp (Map.mem_toSortedList.mpr h)
  exact ⟨_, List.mem_cons_of_mem _
    (List.mem_map.mpr ⟨((identifier, share), i), List.mem_zipIdx_iff_getElem?.mpr hi, rfl⟩)⟩

def Output.Shows (out : Output) (header json : String) : Prop :=
  header ++ json ∈ out.lines ∨ Target.Shows out.writes json

/-- The public key package and every share can be read back, and no file was written twice. -/
structure OutputsEveryShare (args : Args) (keys : Map C.Identifier C.SecretShare)
    (pubkeys : C.PublicKeyPackage) (out : Output) : Prop where
  publicKeyPackage : ∃ json, C.publicKeyPackageToJson pubkeys = some json ∧
    out.Shows "Public key package:\n" json
  share : ∀ identifier share, keys.lookup identifier = some share →
    ∃ json, C.shareToJson share = some json ∧ out.Shows "Secret share:\n" json
  noOverwrite : (Target.filesOf out.writes).Nodup
  distinctPaths : ['\x7b', '\x7d'] <:+: args.keyPackage.toList →
    ∀ i < keys.len, ∀ j < keys.len,
      keyPackagePath args.keyPackage i = keyPackagePath args.keyPackage j → i = j

/-- No two of the paths lead to one file, and every text has a path to a file or standard output. -/
structure Args.Separates (paths : Paths) (args : Args) (keys : Map C.Identifier C.SecretShare)
    (pubkeys : C.PublicKeyPackage) : Prop where
  files : ((args.plan keys pubkeys).filterMap fun w => (paths.resolve w.1).fileName).Nodup
  kept : ∀ w ∈ args.plan keys pubkeys, ∃ w' ∈ args.plan keys pubkeys,
    w'.2 = w.2 ∧ paths.resolve w'.1 ≠ .elsewhere

section Written

variable (hplan : out.writes.map (fun w => (w.1, some w.2)) =
  (args.plan keys pubkeys).map fun w => (paths.resolve w.1, w.2))
include hplan

theorem filesOf_of_plan : Target.filesOf out.writes =
    (args.plan keys pubkeys).filterMap fun w => (paths.resolve w.1).fileName := by
  have hfiles := congrArg (List.filterMap fun w => w.1.fileName) hplan
  rwa [List.filterMap_map, List.filterMap_map] at hfiles

theorem exists_written {path : String} {text : Option String}
    (h : (path, text) ∈ args.plan keys pubkeys) :
    ∃ json, text = some json ∧ (paths.resolve path, json) ∈ out.writes := by
  have hmem := List.mem_map_of_mem (f := fun w => (paths.resolve w.1, w.2)) h
  rw [← hplan] at hmem
  obtain ⟨w, hw, heq⟩ := List.mem_map.mp hmem
  obtain ⟨htarget, rfl⟩ := Prod.mk.inj heq
  exact ⟨w.2, rfl, htarget ▸ hw⟩

theorem exists_planned {w : Target × String} (h : w ∈ out.writes) :
    ∃ path, (path, some w.2) ∈ args.plan keys pubkeys ∧ paths.resolve path = w.1 := by
  have hmem := List.mem_map_of_mem (f := fun w => (w.1, some w.2)) h
  rw [hplan] at hmem
  obtain ⟨planned, hplanned, heq⟩ := List.mem_map.mp hmem
  obtain ⟨htarget, htext⟩ := Prod.mk.inj heq
  exact ⟨planned.1, htext ▸ hplanned, htarget⟩

/-- A text of the plan can be read back if and only if some path keeps it. -/
theorem shows_iff_kept (hnodup : (Target.filesOf out.writes).Nodup) {json : String} :
    Target.Shows out.writes json ↔
      ∃ w ∈ args.plan keys pubkeys, w.2 = some json ∧ paths.resolve w.1 ≠ .elsewhere := by
  rw [Target.shows_iff hnodup]
  constructor
  · rintro ⟨w, hw, rfl, htarget⟩
    obtain ⟨path, hpath, hresolve⟩ := exists_planned hplan hw
    exact ⟨_, hpath, rfl, hresolve ▸ htarget⟩
  · rintro ⟨⟨path, _⟩, hmem, rfl, htarget⟩
    obtain ⟨_, heq, hw⟩ := exists_written hplan hmem
    exact ⟨_, hw, (Option.some.inj heq).symm, htarget⟩

end Written

theorem keyPackagePath_inj (args : Args) (hplaceholder : ['\x7b', '\x7d'] <:+: args.keyPackage.toList) :
    ∀ i < keys.len, ∀ j < keys.len,
      keyPackagePath args.keyPackage i = keyPackagePath args.keyPackage j → i = j :=
  fun _ _ _ _ heq => keyPackagePath_injective hplaceholder heq

theorem outputsEveryShare_of_cli (hcli : args.cli = true)
    (h : printValues paths args keys pubkeys ⟨[], []⟩ = .ok out) :
    OutputsEveryShare args keys pubkeys out := by
  obtain ⟨json, hjson, hprinted⟩ := Outcome.bind_eq_ok_iff.mp h
  rw [Outcome.okOr_eq_ok_iff] at hjson
  rw [if_pos hcli] at hprinted
  obtain ⟨hwrites, hlines, hshares⟩ := of_foldM_printShare hprinted
  refine ⟨⟨json, hjson, .inl (hlines _ List.mem_cons_self)⟩, ?_, ?_, keyPackagePath_inj args⟩
  · intro identifier share hshare
    obtain ⟨json', hjson', hline⟩ := hshares _ (Map.mem_toSortedList.mpr hshare)
    exact ⟨json', hjson', .inl hline⟩
  · rw [hwrites]
    exact List.nodup_nil

theorem OutputsEveryShare.separates (h : OutputsEveryShare args keys pubkeys out)
    (hlines : out.lines = [])
    (hplan : out.writes.map (fun w => (w.1, some w.2)) =
      (args.plan keys pubkeys).map fun w => (paths.resolve w.1, w.2)) :
    args.Separates paths keys pubkeys := by
  have hshown : ∀ {header json}, out.Shows header json → Target.Shows out.writes json := by
    intro header json hshows
    refine hshows.resolve_left ?_
    rw [hlines]
    exact List.not_mem_nil
  refine ⟨filesOf_of_plan hplan ▸ h.noOverwrite, fun w hw => ?_⟩
  -- the text is that of the public key package or of a share
  obtain ⟨json, hjson, hshows⟩ : ∃ json, w.2 = some json ∧ Target.Shows out.writes json := by
    rcases List.mem_cons.mp hw with rfl | hw
    · obtain ⟨json, hjson, hshows⟩ := h.publicKeyPackage
      exact ⟨json, hjson, hshown hshows⟩
    · obtain ⟨p, hp, rfl⟩ := List.mem_map.mp hw
      have hshare := Map.mem_toSortedList.mp
        (List.mem_of_getElem? (List.mem_zipIdx_iff_getElem?.mp hp))
      obtain ⟨json, hjson, hshows⟩ := h.share p.1.1 p.1.2 hshare
      exact ⟨json, hjson, hshown hshows⟩
  obtain ⟨w', hw', hsame, hkept⟩ := (shows_iff_kept hplan h.noOverwrite).mp hshows
  exact ⟨w', hw', hsame.trans hjson.symm, hkept⟩

theorem Args.Separates.outputsEveryShare (h : args.Separates paths keys pubkeys)
    (hplan : out.writes.map (fun w => (w.1, some w.2)) =
      (args.plan keys pubkeys).map fun w => (paths.resolve w.1, w.2)) :
    OutputsEveryShare args keys pubkeys out := by
  have hnodup : (Target.filesOf out.writes).Nodup := filesOf_of_plan hplan ▸ h.files
  have hshows : ∀ {path text}, (path, text) ∈ args.plan keys pubkeys →
      ∃ json, text = some json ∧ Target.Shows out.writes json := by
    intro path text hmem
    obtain ⟨json, rfl, -⟩ := exists_written hplan hmem
    exact ⟨json, rfl, (shows_iff_kept hplan hnodup).mpr (h.kept _ hmem)⟩
  refine ⟨?_, fun identifier share hshare => ?_, hnodup, keyPackagePath_inj args⟩
  · obtain ⟨json, hjson, hjsonShows⟩ := hshows List.mem_cons_self
    exact ⟨json, hjson, .inr hjsonShows⟩
  · obtain ⟨path, hmem⟩ := exists_mem_plan hshare
    obtain ⟨json, hjson, hjsonShows⟩ := hshows hmem
    exact ⟨json, hjson, .inr hjsonShows⟩

/-- `print_values` puts everything out exactly when it prints to the terminal, or its paths lead to
different files and leave nothing out. -/
theorem outputs_every_share_iff (h : printValues paths args keys pubkeys ⟨[], []⟩ = .ok out) :
    OutputsEveryShare args keys pubkeys out ↔
      args.cli = true ∨ args.Separates paths keys pubkeys := by
  by_cases hcli : args.cli = true
  · exact iff_of_true (outputsEveryShare_of_cli hcli h) (.inl hcli)
  · obtain ⟨hlines, hplan⟩ := writes_of_printValues hcli h
    rw [or_iff_right hcli]
    constructor
    · intro houtputs
      exact houtputs.separates hlines hplan
    · intro hseparates
      exact hseparates.outputsEveryShare hplan

def Args.PathsDiffer (args : Args) (numShares : ℕ) : Prop :=
  (['\x7b', '\x7d'] <:+: args.keyPackage.toList ∨ numShares ≤ 1) ∧
    ∀ i < numShares, keyPackagePath args.keyPackage i ≠ args.publicKeyPackage

theorem nodup_paths_iff (args : Args) (numShares : ℕ) :
    (args.publicKeyPackage :: (List.range numShares).map (keyPackagePath args.keyPackage)).Nodup ↔
      args.PathsDiffer numShares := by
  have hmem : args.publicKeyPackage ∉ (List.range numShares).map (keyPackagePath args.keyPackage) ↔
      ∀ i < numShares, keyPackagePath args.keyPackage i ≠ args.publicKeyPackage := by
    simp [List.mem_map]
  rw [List.nodup_cons, hmem, Args.PathsDiffer, and_comm]
  apply and_congr_left
  intro _
  constructor
  · intro hnodup
    by_contra hneither
    rw [not_or, Nat.not_le] at hneither
    obtain ⟨hnone, hmany⟩ := hneither
    have hsame : keyPackagePath args.keyPackage 0 = keyPackagePath args.keyPackage 1 := by
      rw [keyPackagePath_eq hnone, keyPackagePath_eq hnone]
    have hzero : 0 ∈ List.range numShares := List.mem_range.mpr (Nat.lt_of_succ_lt hmany)
    have hone : 1 ∈ List.range numShares := List.mem_range.mpr hmany
    exact absurd (List.inj_on_of_nodup_map hnodup hzero hone hsame) Nat.zero_ne_one
  · rintro (hplaceholder | hone)
    · exact List.nodup_range.map (keyPackagePath_injective hplaceholder)
    · apply List.Nodup.map_on _ List.nodup_range
      intro i hi j hj _
      rw [List.mem_range] at hi hj
      omega

/-- Where every path is a file of its own, the template and the number of shares decide. -/
theorem separates_iff {name : String → String} (hname : Function.Injective name)
    (hresolve : ∀ path, paths.resolve path = .file (name path)) :
    args.Separates paths keys pubkeys ↔ args.PathsDiffer keys.len := by
  have hpaths : (args.plan keys pubkeys).map Prod.fst = args.publicKeyPackage ::
      (List.range keys.len).map (keyPackagePath args.keyPackage) := by
    rw [← Map.length_toSortedList, List.range_eq_range', ← List.zipIdx_map_snd, List.map_map,
      Args.plan, List.map_cons, List.map_map]
    rfl
  have hfiles : (args.plan keys pubkeys).filterMap (fun w => (paths.resolve w.1).fileName) =
      ((args.plan keys pubkeys).map Prod.fst).map name := by
    rw [List.map_map, ← List.filterMap_eq_map]
    refine List.filterMap_congr fun w _ => ?_
    rw [hresolve]
    rfl
  rw [← nodup_paths_iff, ← hpaths, ← List.nodup_map_iff hname, ← hfiles]
  refine ⟨Args.Separates.files, fun hnodup => ⟨hnodup, fun w hw => ⟨w, hw, rfl, ?_⟩⟩⟩
  rw [hresolve]
  exact fun h => by cases h

def sampleCiphersuite : Ciphersuite where
  Identifier := Fin 256
  SecretShare := String
  PublicKeyPackage := String
  serializeIdentifier identifier := [UInt8.ofNat identifier.val]
  shareToJson := some
  publicKeyPackageToJson := some

def sampleKeys : Map (Fin 256) String :=
  Map.ofList [(⟨1, by decide⟩, "share 1"), (⟨2, by decide⟩, "share 2")]

/-- Every path is a file of its own. -/
def samplePaths : Paths := ⟨.file, fun _ => true⟩

/-- The default arguments. -/
def sampleArgs : Args := ⟨false, "public-key-package.json", "key-package-\x7b\x7d.json"⟩

theorem outputs_every_share_sample : ∃ out, printValues (C := sampleCiphersuite) samplePaths
      sampleArgs sampleKeys "public" ⟨[], []⟩ = .ok out ∧
    OutputsEveryShare (C := sampleCiphersuite) sampleArgs sampleKeys "public" out := by
  have hrun : printValues (C := sampleCiphersuite) samplePaths sampleArgs sampleKeys "public"
      ⟨[], []⟩ = .ok ⟨[], [(.file "public-key-package.json", "public"),
        (.file "key-package-1.json", "share 1"), (.file "key-package-2.json", "share 2")]⟩ := by decide
  have hdiffer : sampleArgs.PathsDiffer 2 := by
    constructor
    · exact .inl ⟨"key-package-".toList, ".json".toList, by decide⟩
    · decide
  exact ⟨_, hrun, (outputs_every_share_iff hrun).mpr
    (.inr ((separates_iff Function.injective_id fun _ => rfl).mpr hdiffer))⟩

/-- The documented `-` is a file, and the last share takes the place of what it held. -/
theorem dash_loses_share : ∃ out, printValues (C := sampleCiphersuite) samplePaths
      ⟨false, "-", "-"⟩ sampleKeys "public" ⟨[], []⟩ = .ok out ∧
    ¬out.Shows "Secret share:\n" "share 1" ∧
    ¬OutputsEveryShare (C := sampleCiphersuite) ⟨false, "-", "-"⟩ sampleKeys "public" out := by
  have hlost : ¬(⟨[], [(.file "-", "public"), (.file "-", "share 1"),
      (.file "-", "share 2")]⟩ : Output).Shows "Secret share:\n" "share 1" := by
    rintro (hline | hstdout | ⟨name, hname⟩)
    · cases hline
    · simp at hstdout
    · by_cases hdash : "-" = name
      · simp [Target.contents, hdash] at hname
      · simp [Target.contents, hdash] at hname
  refine ⟨⟨[], [(.file "-", "public"), (.file "-", "share 1"), (.file "-", "share 2")]⟩, by decide,
    hlost, ?_⟩
  intro houtputs
  have hshare : sampleKeys.lookup (Fin.ofNat 256 1) = some "share 1" := by decide
  obtain ⟨json, hjson, hshows⟩ := houtputs.share (Fin.ofNat 256 1) "share 1" hshare
  rw [← Option.some.inj hjson] at hshows
  exact hlost hshows

end FrostTools.TrustedDealer
