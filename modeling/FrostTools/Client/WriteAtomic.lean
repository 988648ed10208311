import FrostTools.Client.Storage

/-!
# Files that are replaced as a whole

Processes write temporary files, and put them in the place of others. Whatever they know of the files
and may put there, no other process sees a file that is not complete.
-/

namespace FrostTools.Client.Storage

/-- What a process knows of the files, and what it may put in their place. -/
structure Access (K : Type) where
  finds : K → String → Option Bytes → Prop
  mayPut : K → String → Bytes → Prop
  put : K → String → Bytes → K
  /-- Whether it may miss a file because it cannot look at the path. -/
  mayMiss : Prop

structure Mode (K : Type) where
  known : K
  temp : Option (String × Bytes)

variable {platform : Platform} {K : Type} {A : Access K} {k : K} {t path parent dst : String}
  {data contents : Bytes} {ι : Type} {disk disk' : Disk}

namespace Access

/-- A process has one temporary file at a time, and looks at no other. -/
def allows (platform : Platform) (A : Access K) (m : Mode K) : Query → Prop
  | .isDir _ => True
  | .createDirAll _ => True
  | .tempfileIn _ => m.temp = none
  | .write file _ => ∃ contents, m.temp = some (file, contents)
  | .flush _ => True
  | .persist file dst => ∃ contents, m.temp = some (file, contents) ∧ A.mayPut m.known dst contents ∧
      platform.isTemp dst = false
  | .drop file => ∃ contents, m.temp = some (file, contents)
  | .pathExists path => platform.isTemp path = false
  | .read path => platform.isTemp path = false

def expects (A : Access K) (m : Mode K) : (q : Query) → q.Answer → Prop
  | .pathExists path, some answer =>
    ∃ found, A.finds m.known path found ∧ (answer = false → found = none)
  | .pathExists _, none => A.mayMiss
  | .read path, some contents => A.finds m.known path (some contents)
  | _, _ => True

def next (A : Access K) (m : Mode K) : (q : Query) → q.Answer → Mode K
  | .tempfileIn _, some file => { m with temp := some (file, []) }
  | .write _ data, some n =>
    { m with temp := m.temp.map fun (file, contents) => (file, contents ++ data.take n) }
  | .persist _ dst, some () =>
    match m.temp with
    | some (_, contents) => ⟨A.put m.known dst contents, none⟩
    | none => m
  | .drop _, () => { m with temp := none }
  | _, _ => m

def monitor (platform : Platform) (A : Access K) : Monitor System (Mode K) :=
  ⟨A.allows platform, A.expects, A.next⟩

variable {m : Mode K} {n : ℕ}

theorem next_write (h : m.temp = some (t, contents)) :
    (A.monitor platform).next m (.write t data) (some n) =
      ⟨m.known, some (t, contents ++ data.take n)⟩ := by
  obtain ⟨k, temp⟩ := m
  cases h
  rfl

theorem next_persist (h : m.temp = some (t, contents)) :
    (A.monitor platform).next m (.persist t dst) (some ()) = ⟨A.put m.known dst contents, none⟩ := by
  obtain ⟨k, temp⟩ := m
  cases h
  rfl

end Access

section Obeys

variable {E : ConfigError → Mode K → Prop} {Q : Unit → Unit → Mode K → Prop}

theorem obeys_ask {α : Type} {q : Query} {m : Mode K} {o : q.Answer → Outcome ConfigError α}
    {Q : α → Unit → Mode K → Prop} (hallows : A.allows platform m q)
    (hpanic : ∀ answer message, o answer ≠ .panic message)
    (hok : ∀ answer a, A.expects m q answer → o answer = .ok a → Q a () (A.next m q answer))
    (herr : ∀ answer e, A.expects m q answer → o answer = .err e → E e (A.next m q answer)) :
    Method.Obeys (A.monitor platform) E Q
      (Method.query (F := System) q >>= fun answer => Method.lift (o answer)) () m := by
  apply Method.Obeys.bind
  refine Method.Obeys.query hallows fun answer hexpects => ?_
  exact .lift (hpanic answer) (fun a ha => hok answer a hexpects ha) fun e he => herr answer e hexpects he

theorem obeys_checkPath {m : Mode K} (hE : ∀ e, E e m) :
    (checkPath platform path).Obeys (A.monitor platform) E
      (fun parent _ m' => platform.parent path = some parent ∧ m' = m) () m := by
  apply Method.Obeys.bind
  refine Method.Obeys.query trivial fun answer _ => ?_
  dsimp only
  split_ifs with hdir
  · exact .fail (hE _)
  · apply Method.Obeys.bind
    refine .lift (Outcome.okOr_ne_panic _ _) (fun parent hparent => ?_) fun e _ => hE e
    apply Method.Obeys.bind
    refine Method.Obeys.query trivial fun answer _ => ?_
    apply Method.Obeys.bind
    refine .lift (Outcome.okOr_ne_panic _ _) (fun _ _ => ?_) fun e _ => hE e
    exact .pure ⟨Outcome.okOr_eq_ok_iff.mp hparent, rfl⟩

theorem obeys_writeUpTo (hE : ∀ e contents, E e ⟨k, some (t, contents)⟩) {fuel : ℕ}
    (hfuel : data.length ≤ fuel) : (writeUpTo t fuel data).Obeys (A.monitor platform) E
      (fun _ _ m => m = ⟨k, some (t, contents ++ data)⟩) () ⟨k, some (t, contents)⟩ := by
  induction fuel generalizing data contents with
  | zero =>
    obtain rfl := List.length_eq_zero_iff.mp (Nat.le_zero.mp hfuel)
    exact .pure (by rw [List.append_nil])
  | succ fuel ih =>
    cases data with
    | nil => exact .pure (by rw [List.append_nil])
    | cons b bs =>
      apply Method.Obeys.bind
      refine Method.Obeys.query ⟨contents, rfl⟩ fun answer _ => ?_
      rcases answer with _ | n | n
      · exact .fail (hE _ contents)
      · exact .fail (hE _ _)
      · have hrest : (writeUpTo t fuel ((b :: bs).drop (n + 1))).Obeys (A.monitor platform) E
            (fun _ _ m => m = ⟨k, some (t, contents ++ (b :: bs).take (n + 1) ++
              (b :: bs).drop (n + 1))⟩) () ⟨k, some (t, contents ++ (b :: bs).take (n + 1))⟩ := by
          apply ih
          rw [List.length_drop]
          rw [List.length_cons] at hfuel ⊢
          omega
        rw [List.append_assoc, List.take_append_drop] at hrest
        exact hrest

theorem obeys_writeAll (hE : ∀ e contents, E e ⟨k, some (t, contents)⟩) :
    (writeAll t data).Obeys (A.monitor platform) E
      (fun _ _ m => m = ⟨k, some (t, contents ++ data)⟩) () ⟨k, some (t, contents)⟩ :=
  obeys_writeUpTo hE (Nat.le_refl _)

/-- An error leaves no temporary file. -/
theorem obeys_dropOnError {α : Type} {x : Run α} {m : Mode K} {Q : α → Unit → Mode K → Prop}
    (h : x.Obeys (A.monitor platform)
      (fun e m' => (∃ contents, m'.temp = some (t, contents)) ∧ E e ⟨m'.known, none⟩) Q () m) :
    (dropOnError t x).Obeys (A.monitor platform) E Q () m := by
  apply Program.Obeys.bind
  apply Program.Obeys.mono h
  rintro ⟨o, ⟨⟩⟩ m' (⟨a, rfl, ha⟩ | ⟨e, rfl, htemp, he⟩)
  · exact .inl ⟨a, rfl, ha⟩
  · exact ⟨htemp, fun _ _ => .inr ⟨e, rfl, he⟩⟩

/-- A file is put in place once all of it is written, and never if there is an error. -/
theorem obeys_writeFile (hput : A.mayPut k path data) (hpath : platform.isTemp path = false)
    (hE : ∀ e, E e ⟨k, none⟩) (hQ : Q () () ⟨A.put k path data, none⟩) :
    (writeFile platform path data).Obeys (A.monitor platform) E Q () ⟨k, none⟩ := by
  apply Method.Obeys.bind
  refine (obeys_checkPath hE).mono (fun _ _ h => h) ?_
  rintro parent ⟨⟩ _ ⟨-, rfl⟩
  apply Method.Obeys.bind
  refine Method.Obeys.query rfl fun answer _ => ?_
  apply Method.Obeys.bind
  refine .lift (Outcome.okOr_ne_panic _ _) (fun t ht => ?_) fun e he => ?_
  · rw [Outcome.okOr_eq_ok_iff.mp ht]
    -- whatever fails once there is a temporary file, it is dropped and the file is as it was
    have hdropped : ∀ e contents, (∃ c, (⟨k, some (t, contents)⟩ : Mode K).temp = some (t, c)) ∧
        E e ⟨k, none⟩ := fun e contents => ⟨⟨contents, rfl⟩, hE e⟩
    apply obeys_dropOnError
    apply Method.Obeys.bind
    have hall : (writeAll t data).Obeys (A.monitor platform)
        (fun e m => (∃ contents, m.temp = some (t, contents)) ∧ E e ⟨m.known, none⟩)
        (fun _ _ m => m = ⟨k, some (t, [] ++ data)⟩) () ⟨k, some (t, [])⟩ := obeys_writeAll hdropped
    refine hall.mono (fun _ _ h => h) ?_
    rintro ⟨⟩ ⟨⟩ _ rfl
    apply Method.Obeys.bind
    refine Method.Obeys.query trivial fun answer _ => ?_
    apply Method.Obeys.bind
    refine .lift (Outcome.okOr_ne_panic _ _) (fun _ _ => ?_) fun e _ => hdropped e _
    refine obeys_ask ⟨_, rfl, hput, hpath⟩ (fun _ => Outcome.okOr_ne_panic _ _) ?_ ?_
    · rintro answer ⟨⟩ - hanswer
      rw [Outcome.okOr_eq_ok_iff.mp hanswer]
      exact hQ
    · rintro (_ | _) e - he
      · exact hdropped e _
      · cases he
  · cases answer with
    | none => exact hE e
    | some t => cases he

end Obeys

def visible (platform : Platform) (disk : Disk) (path : String) : Option Bytes :=
  if platform.isTemp path = true then none else disk.lookup path

theorem visible_of_temp_eq_false (h : platform.isTemp path = false) :
    visible platform disk path = disk.lookup path := by
  rw [visible, h]
  rfl

theorem visible_insert_temp (h : platform.isTemp t = true) :
    visible platform (disk.insert t contents) = visible platform disk := by
  funext path
  unfold visible
  split_ifs with htemp
  · rfl
  · rw [Map.lookup_insert, if_neg]
    rintro rfl
    exact htemp h

theorem visible_erase_temp (h : platform.isTemp t = true) :
    visible platform (disk.erase t) = visible platform disk := by
  funext path
  unfold visible
  split_ifs with htemp
  · rfl
  · rw [Map.lookup_erase, if_neg]
    rintro rfl
    exact htemp h

theorem visible_insert (h : platform.isTemp dst = false) :
    visible platform (disk.insert dst contents) =
      Function.update (visible platform disk) dst (some contents) := by
  funext path
  by_cases hpath : path = dst
  · subst hpath
    rw [Function.update_self, visible_of_temp_eq_false h, Map.lookup_insert, if_pos rfl]
  · rw [Function.update_of_ne hpath]
    unfold visible
    rw [Map.lookup_insert, if_neg hpath]

def putter : Move System ι → Option ι
  | .answers i ⟨.persist _ _, some ()⟩ => some i
  | _ => none

def putters (ms : List (Move System ι)) : List ι := ms.filterMap putter

variable [DecidableEq ι] {KK : ι → Type} {AA : (i : ι) → Access (KK i)}
  {J : List ι → (String → Option Bytes) → ((i : ι) → KK i) → Prop}

/-- A property of the files and of what the processes know, which the files that they put in place
keep. -/
structure Maintains (platform : Platform) (AA : (i : ι) → Access (KK i))
    (J : List ι → (String → Option Bytes) → ((i : ι) → KK i) → Prop) : Prop where
  finds {order : List ι} {files : String → Option Bytes} {known : (i : ι) → KK i} {i : ι}
    {path : String} : J order files known → platform.isTemp path = false →
    (AA i).finds (known i) path (files path)
  put {order : List ι} {files : String → Option Bytes} {known : (i : ι) → KK i} {i : ι}
    {dst : String} {contents : Bytes} : J order files known → platform.isTemp dst = false →
    (AA i).mayPut (known i) dst contents →
    J (order ++ [i]) (Function.update files dst (some contents))
      (Function.update known i ((AA i).put (known i) dst contents))

/-- Every process has its temporary file for itself. -/
structure Coherent (platform : Platform)
    (J : List ι → (String → Option Bytes) → ((i : ι) → KK i) → Prop) (ms : List (Move System ι))
    (disk : Disk) (m : (i : ι) → Mode (KK i)) : Prop where
  temp {i : ι} {t : String} {contents : Bytes} : (m i).temp = some (t, contents) →
    platform.isTemp t = true ∧ disk.lookup t = some contents
  distinct {i j : ι} {t : String} {contents contents' : Bytes} : (m i).temp = some (t, contents) →
    (m j).temp = some (t, contents') → i = j
  known : J (putters ms) (visible platform disk) fun i => (m i).known

section Coherent

variable {ms : List (Move System ι)} {m : (i : ι) → Mode (KK i)} {i : ι}

omit [DecidableEq ι] in
theorem putters_append (ms : List (Move System ι)) (move : Move System ι) :
    putters (ms ++ [move]) = putters ms ++ (putter move).toList := by
  rw [putters, List.filterMap_append]
  cases h : putter move with
  | none => rw [List.filterMap_cons_none h]; rfl
  | some i => rw [List.filterMap_cons_some h]; rfl

theorem known_update (m : (i : ι) → Mode (KK i)) (i : ι) (m' : Mode (KK i)) :
    (fun j => (Function.update m i m' j).known) = Function.update (fun j => (m j).known) i m'.known :=
  funext fun j => Function.apply_update (fun j (m : Mode (KK j)) => m.known) m i m' j

omit [DecidableEq ι] in
theorem Coherent.stay (h : Coherent platform J ms disk m) {move : Move System ι}
    (hputter : putter move = none) : Coherent platform J (ms ++ [move]) disk m := by
  refine ⟨h.temp, h.distinct, ?_⟩
  rw [putters_append, hputter, Option.toList_none, List.append_nil]
  exact h.known

/-- A step that gives a process another temporary file, or none. -/
theorem Coherent.changeTemp (h : Coherent platform J ms disk m) {move : Move System ι}
    (hputter : putter move = none) (hvisible : visible platform disk' = visible platform disk)
    (temp : Option (String × Bytes))
    (htemp : ∀ t contents, temp = some (t, contents) → platform.isTemp t = true ∧
      disk'.lookup t = some contents ∧ ∀ j ≠ i, ∀ contents', (m j).temp ≠ some (t, contents'))
    (hothers : ∀ j ≠ i, ∀ t contents, (m j).temp = some (t, contents) →
      disk'.lookup t = disk.lookup t) :
    Coherent platform J (ms ++ [move]) disk' (Function.update m i ⟨(m i).known, temp⟩) := by
  refine ⟨?_, ?_, ?_⟩
  · intro j t contents hj
    by_cases hji : j = i
    · subst hji
      rw [Function.update_self] at hj
      obtain ⟨hist, hlookup, -⟩ := htemp t contents hj
      exact ⟨hist, hlookup⟩
    · rw [Function.update_of_ne hji] at hj
      obtain ⟨hist, hlookup⟩ := h.temp hj
      exact ⟨hist, (hothers j hji t contents hj).trans hlookup⟩
  · intro j l t contents contents' hj hl
    by_cases hji : j = i
    · by_cases hli : l = i
      · rw [hji, hli]
      · subst hji
        rw [Function.update_self] at hj
        rw [Function.update_of_ne hli] at hl
        exact absurd hl ((htemp t contents hj).2.2 l hli contents')
    · rw [Function.update_of_ne hji] at hj
      by_cases hli : l = i
      · subst hli
        rw [Function.update_self] at hl
        exact absurd hj ((htemp t contents' hl).2.2 j hji contents)
      · rw [Function.update_of_ne hli] at hl
        exact h.distinct hj hl
  · rw [putters_append, hputter, Option.toList_none, List.append_nil, hvisible, known_update,
      Function.update_eq_self]
    exact h.known

omit [DecidableEq ι] in
theorem Coherent.ne_of_temp (h : Coherent platform J ms disk m) {j : ι} {contents' : Bytes} {t' : String}
    (hi : (m i).temp = some (t, contents)) (hj : (m j).temp = some (t', contents')) (hne : j ≠ i) :
    t' ≠ t := by
  rintro rfl
  exact hne (h.distinct hj hi)

theorem Coherent.persist (h : Coherent platform J ms disk m) (hJ : Maintains platform AA J)
    (htemp : (m i).temp = some (t, contents)) (hput : (AA i).mayPut (m i).known dst contents)
    (hdst : platform.isTemp dst = false) :
    Coherent platform J (ms ++ [.answers i ⟨.persist t dst, some ()⟩])
      ((disk.erase t).insert dst contents)
      (Function.update m i ⟨(AA i).put (m i).known dst contents, none⟩) := by
  have hist := (h.temp htemp).1
  refine ⟨?_, ?_, ?_⟩
  · intro j t' contents' hj
    by_cases hji : j = i
    · subst hji
      rw [Function.update_self] at hj
      cases hj
    · rw [Function.update_of_ne hji] at hj
      obtain ⟨hist', hlookup⟩ := h.temp hj
      refine ⟨hist', ?_⟩
      rw [Map.lookup_insert, if_neg, Map.lookup_erase, if_neg (h.ne_of_temp htemp hj hji), hlookup]
      rintro rfl
      rw [hist'] at hdst
      cases hdst
  · intro j l t' contents' contents'' hj hl
    by_cases hji : j = i
    · subst hji
      rw [Function.update_self] at hj
      cases hj
    · by_cases hli : l = i
      · subst hli
        rw [Function.update_self] at hl
        cases hl
      · rw [Function.update_of_ne hji] at hj
        rw [Function.update_of_ne hli] at hl
        exact h.distinct hj hl
  · rw [putters_append, visible_insert hdst, visible_erase_temp hist, known_update]
    exact hJ.put h.known hdst hput

end Coherent

/-- A failure to look at a path is an answer only for the processes that may miss a file. -/
def mayAnswer (AA : (i : ι) → Access (KK i)) (i : ι) : System.Event → Prop
  | ⟨.pathExists _, none⟩ => (AA i).mayMiss
  | _ => True

/-- The operating system keeps the temporary files of the processes apart. -/
theorem guards_coherent (hJ : Maintains platform AA J) :
    ((os platform ι).restrict (mayAnswer AA)).Guards (fun i => (AA i).monitor platform)
      (Coherent platform J) where
  idles _ hidles := hidles.elim
  works _ _ hworks := hworks.elim
  answers := by
    rintro ms disk disk' m i q answer h hallows ⟨hanswers, hmay⟩
    -- most answers change neither a file nor what the process knows
    have hsame : ∀ {disk}, Coherent platform J ms disk m → putter (.answers i ⟨q, answer⟩) = none →
        (AA i).next (m i) q answer = m i → Coherent platform J (ms ++ [.answers i ⟨q, answer⟩]) disk
          (Function.update m i ((AA i).next (m i) q answer)) := by
      intro disk h hputter hnext
      rw [hnext, Function.update_eq_self]
      exact h.stay hputter
    cases hanswers with
    | isDir => exact ⟨trivial, hsame h rfl rfl⟩
    | createDirAll => exact ⟨trivial, hsame h rfl rfl⟩
    | tempfileInFailed => exact ⟨trivial, hsame h rfl rfl⟩
    | writeFailed => exact ⟨trivial, hsame h rfl rfl⟩
    | flush => exact ⟨trivial, hsame h rfl rfl⟩
    | persistFailed => exact ⟨trivial, hsame h rfl rfl⟩
    | readFailed => exact ⟨trivial, hsame h rfl rfl⟩
    | pathExistsFailed => exact ⟨hmay, hsame h rfl rfl⟩
    -- what a process finds is what its monitor expects, unless it cannot look
    | @pathExists path answer hexists =>
      refine ⟨⟨_, hJ.finds h.known hallows, ?_⟩, hsame h rfl rfl⟩
      rintro rfl
      rw [visible_of_temp_eq_false hallows, Map.lookup_eq_none_iff]
      exact fun hmem => absurd (hexists hmem) Bool.false_ne_true
    | @read path contents hlookup =>
      refine ⟨?_, hsame h rfl rfl⟩
      have hfinds := hJ.finds (i := i) h.known hallows
      rwa [visible_of_temp_eq_false hallows, hlookup] at hfinds
    -- the name of a temporary file is new, so no other process has it
    | @tempfileIn parent file hist hparent hnew =>
      have hfile : ∀ j contents, (m j).temp ≠ some (file, contents) := fun j contents hj =>
        hnew (Map.mem_keys_of_lookup (h.temp hj).2)
      refine ⟨trivial, h.changeTemp rfl (visible_insert_temp hist) (some (file, [])) ?_ ?_⟩
      · rintro t contents ⟨⟩
        exact ⟨hist, by rw [Map.lookup_insert, if_pos rfl], fun j _ => hfile j⟩
      · intro j _ t contents hj
        rw [Map.lookup_insert, if_neg]
        rintro rfl
        exact hfile j contents hj
    -- a write goes to the process's own temporary file, which nobody sees
    | @write file data contents n hlookup hle =>
      obtain ⟨contents', htemp⟩ := hallows
      obtain ⟨hist, hlookup'⟩ := h.temp htemp
      obtain rfl : contents = contents' := Option.some.inj (hlookup.symm.trans hlookup')
      refine ⟨trivial, ?_⟩
      rw [Access.next_write htemp]
      refine h.changeTemp rfl (visible_insert_temp hist) _ ?_ ?_
      · rintro t _ ⟨⟩
        refine ⟨hist, by rw [Map.lookup_insert, if_pos rfl], fun j hj contents' htemp' => ?_⟩
        exact h.ne_of_temp htemp htemp' hj rfl
      · intro j hj t _ htemp'
        rw [Map.lookup_insert, if_neg (h.ne_of_temp htemp htemp' hj)]
    | @persist file dst contents hlookup =>
      obtain ⟨contents', htemp, hput, hdst⟩ := hallows
      obtain rfl : contents = contents' := Option.some.inj (hlookup.symm.trans (h.temp htemp).2)
      rw [Access.next_persist htemp]
      exact ⟨trivial, h.persist hJ htemp hput hdst⟩
    | @drop file =>
      obtain ⟨contents, htemp⟩ := hallows
      refine ⟨trivial, h.changeTemp rfl (visible_erase_temp (h.temp htemp).1) none ?_ ?_⟩
      · rintro _ _ ⟨⟩
      · intro j hj t _ htemp'
        rw [Map.lookup_erase, if_neg (h.ne_of_temp htemp htemp' hj)]
    | dropFailed =>
      refine ⟨trivial, h.changeTemp rfl rfl none ?_ fun _ _ _ _ _ => rfl⟩
      rintro _ _ ⟨⟩

theorem Coherent.run {α : ι → Type} {Q : (i : ι) → α i → Mode (KK i) → Prop} {start : Disk}
    {programs : (i : ι) → Program System (α i)} {m₀ : (i : ι) → Mode (KK i)}
    {s : Disk × ((i : ι) → Program System (α i))} (hstart : Coherent platform J [] start m₀)
    (hJ : Maintains platform AA J)
    (hobeys : ∀ i, (programs i).Obeys ((AA i).monitor platform) (Q i) (m₀ i))
    {ms : List (Move System ι)} (h : ((os platform ι).system start programs).Run ms s)
    (hmay : ∀ i path, (.answers i ⟨.pathExists path, none⟩ : Move System ι) ∈ ms → (AA i).mayMiss) :
    ∃ m, Coherent platform J ms s.1 m ∧ ∀ i, (s.2 i).Obeys ((AA i).monitor platform) (Q i) (m i) := by
  refine (guards_coherent hJ).run hstart hobeys (Environment.run_restrict h fun i event hmem => ?_)
  obtain ⟨q, answer⟩ := event
  cases q with
  | pathExists path =>
    cases answer with
    | none => exact hmay i path hmem
    | some answer => trivial
  | _ => trivial

def putNext (writes : ι → List (String × Bytes)) (s : (String → Option Bytes) × (ι → ℕ)) (i : ι) :
    (String → Option Bytes) × (ι → ℕ) :=
  match (writes i)[s.2 i]? with
  | some (path, data) => (Function.update s.1 path (some data), Function.update s.2 i (s.2 i + 1))
  | none => s

/-- The files after writes in one step each, by the processes in this order. -/
def atomicWrites (writes : ι → List (String × Bytes)) (files : String → Option Bytes)
    (order : List ι) : (String → Option Bytes) × (ι → ℕ) :=
  order.foldl (putNext writes) (files, fun _ => 0)

def writeFiles (platform : Platform) (writes : List (String × Bytes)) : Run Unit :=
  Method.foldM (fun () (path, data) => writeFile platform path data) () writes

section Writers

variable {writes : ι → List (String × Bytes)} {start : Disk} {ms : List (Move System ι)}
  {s : Disk × (ι → Program System (Outcome ConfigError Unit × Unit))}

/-- A writer knows how many files it has put in place. -/
def writer (writes : List (String × Bytes)) : Access ℕ where
  finds _ _ _ := True
  mayPut n path data := writes[n]? = some (path, data)
  put n _ _ := n + 1
  mayMiss := True

theorem obeys_writeFiles {writes : List (String × Bytes)}
    (hwrites : ∀ w ∈ writes, platform.isTemp w.1 = false) :
    (writeFiles platform writes).Obeys ((writer writes).monitor platform)
      (fun _ m => m.known < writes.length) (fun _ _ m => m.known = writes.length) () ⟨0, none⟩ := by
  have hfold := Method.Obeys.foldM (E := fun _ (m : Mode ℕ) => m.known < writes.length)
    (A := (writer writes).monitor platform) (g := fun () (w : String × Bytes) =>
      writeFile platform w.1 w.2) (b := ()) (l := writes) (s := ()) (m := ⟨0, none⟩)
    (fun left _ _ m => m.temp = none ∧ m.known ≤ writes.length ∧ writes.drop m.known = left)
    ⟨rfl, Nat.zero_le _, rfl⟩ ?_
  · refine hfold.mono (fun _ _ h => h) ?_
    rintro ⟨⟩ ⟨⟩ m ⟨-, hle, hdrop⟩
    exact Nat.le_antisymm hle (List.drop_eq_nil_iff.mp hdrop)
  · rintro ⟨path, data⟩ left ⟨⟩ ⟨⟩ ⟨n, temp⟩ ⟨rfl, hle, hdrop⟩
    have hget : writes[n]? = some (path, data) := by
      rw [← List.head?_drop, hdrop]
      rfl
    have hlt : n < writes.length := (List.getElem?_eq_some_iff.mp hget).1
    refine obeys_writeFile hget (hwrites _ (List.mem_of_getElem? hget)) (fun _ => hlt) ⟨rfl, hlt, ?_⟩
    change writes.drop (n + 1) = left
    rw [← List.tail_drop, hdrop]
    rfl

theorem maintains_writers : Maintains platform (fun i => writer (writes i))
    (fun order files known => (files, known) = atomicWrites writes (visible platform start) order) where
  finds _ _ := trivial
  put := by
    intro order files known i dst contents h _ hput
    rw [atomicWrites, List.foldl_append, ← atomicWrites, ← h]
    change _ = putNext writes (files, known) i
    rw [putNext, hput]
    rfl

/-- Processes that write any files at the same time, to the same places as well. However their steps
interleave, fail or stop, the files are the same as after writes in one step each; these are the first
files of each process, and all of them if it returns without an error. -/
theorem writes_atomic (hwrites : ∀ i, ∀ w ∈ writes i, platform.isTemp w.1 = false)
    (h : ((os platform ι).system start fun i => writeFiles platform (writes i) ()).Run ms s) :
    visible platform s.1 = (atomicWrites writes (visible platform start) (putters ms)).1 ∧
    ∀ i o, s.2 i = .done (o, ()) →
      (o = .ok () ∧ (atomicWrites writes (visible platform start) (putters ms)).2 i =
        (writes i).length) ∨
      ∃ e, o = .err e ∧ (atomicWrites writes (visible platform start) (putters ms)).2 i <
        (writes i).length := by
  have hcoherent : Coherent platform (fun order files known =>
      (files, known) = atomicWrites writes (visible platform start) order)
      ([] : List (Move System ι)) start fun _ => ⟨0, none⟩ := ⟨nofun, nofun, rfl⟩
  obtain ⟨m, hcoherent, hobeys⟩ := hcoherent.run maintains_writers
    (fun i => obeys_writeFiles (hwrites i)) h fun _ _ _ => trivial
  have hknown := hcoherent.known
  rw [Prod.ext_iff] at hknown
  obtain ⟨hfiles, hwritten⟩ := hknown
  refine ⟨hfiles, fun i o hdone => ?_⟩
  rw [← hwritten]
  have hreturned := hobeys i
  rw [hdone] at hreturned
  rcases hreturned with ⟨⟨⟩, hok, hknown⟩ | ⟨e, herr, hknown⟩
  · exact .inl ⟨hok, hknown⟩
  · exact .inr ⟨e, herr, hknown⟩

def sampleWrites : Bool → List (String × Bytes)
  | true => [("config", [1])]
  | false => [("config", [2, 3])]

def samplePlatform : Platform := ⟨fun _ => some "", fun path => path == "temp" || path == "temp'"⟩

def sampleWriters : TransitionSystem
    (Disk × (Bool → Program System (Outcome ConfigError Unit × Unit))) (Move System Bool) :=
  (os samplePlatform Bool).system ∅ fun i => writeFiles samplePlatform (sampleWrites i) ()

/-- The second writer starts and returns before the first one puts its file in place. -/
theorem exists_sample_run : ∃ ms s, sampleWriters.Run ms s ∧ putters ms = [false, true] ∧
    s.2 true = .done (.ok (), ()) := by
  have h₀ : sampleWriters.Run [] _ := .start rfl
  have h₁ := run_answer h₀ true rfl (.isDir (a := false))
  have h₂ := run_answer h₁ true rfl (.createDirAll (a := some ()))
  have h₃ := run_answer h₂ true rfl (.tempfileIn (t := "temp") rfl rfl (by decide))
  have h₄ := run_answer h₃ true rfl (.write (n := 1) rfl (by decide))
  have h₅ := run_answer h₄ false rfl (.isDir (a := false))
  have h₆ := run_answer h₅ false rfl (.createDirAll (a := some ()))
  have h₇ := run_answer h₆ false rfl (.tempfileIn (t := "temp'") rfl rfl (by decide))
  have h₈ := run_answer h₇ false rfl (.write (n := 1) rfl (by decide))
  have h₉ := run_answer h₈ false rfl (.write (n := 1) rfl (by decide))
  have h₁₀ := run_answer h₉ false rfl (.flush (a := some ()))
  have h₁₁ := run_answer h₁₀ false rfl (.persist rfl)
  have h₁₂ := run_answer h₁₁ true rfl (.flush (a := some ()))
  have h₁₃ := run_answer h₁₂ true rfl (.persist rfl)
  exact ⟨_, _, h₁₃, rfl, rfl⟩

theorem writes_atomic_sample : ∃ ms s, sampleWriters.Run ms s ∧
    visible samplePlatform s.1 "config" = some [1] := by
  obtain ⟨ms, s, hrun, hputters, -⟩ := exists_sample_run
  refine ⟨ms, s, hrun, ?_⟩
  have hfiles := (writes_atomic (by decide) hrun).1
  rw [hfiles, hputters]
  rfl

end Writers

end FrostTools.Client.Storage
