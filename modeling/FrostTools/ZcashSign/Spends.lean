import FrostTools.Signing.Cli
import FrostTools.ZcashSign.Sign

/-!
# Each signature reaches its own spend

The first pass lists the spends that await a signature, pool by pool. The second pass filters the
signatures by pool again, so each one is applied at the position it was asked for.
-/

namespace FrostTools.ZcashSign
open Client (hexEncode hexDecode)
open Signing (trim)

namespace Libraries

variable {L : Libraries}

/-- `sign_orchard_with` and `sign_ironwood_with` preserve the actions of a bundle and the other
bundle, and `apply_signature` sets the signature if and only if it verifies. -/
structure Lawful (L : Libraries) (verifies : L.Action → Bytes32 → L.Signature → Prop) : Prop where
  parse_serializeFrom : ∀ {pool pczt actions actions' data},
    L.parse pool pczt = .ok (actions, data) → actions'.length = actions.length →
    ∃ data', L.parse pool (L.serializeFrom pool pczt (actions', data)) = .ok (actions', data')
  parse_other : ∀ {pool pool' pczt bundle}, pool' ≠ pool →
    L.parse pool' (L.serializeFrom pool pczt bundle) = L.parse pool' pczt
  exists_apply_iff : ∀ {action sighash signature},
    (∃ action', L.applySignature action sighash signature = .ok action') ↔
      verifies action sighash signature
  spendAuthSig_apply : ∀ {action sighash signature action'},
    L.applySignature action sighash signature = .ok action' →
    L.spendAuthSig action' = some signature

/-- The actions of a pool; a PCZT whose bundle cannot be read has none. -/
def actions (pool : Pool) (pczt : L.Pczt) : List L.Action :=
  match L.parse pool pczt with
  | .ok bundle => bundle.1
  | .error _ => []

theorem actions_of_parse {pool : Pool} {pczt : L.Pczt} {bundle : L.Bundle}
    (h : L.parse pool pczt = .ok bundle) : actions pool pczt = bundle.1 := by
  rw [actions, h]

def awaited (action : L.Action) : Option Bytes32 :=
  if (L.spendAuthSig action).isNone then (L.alpha action).map L.toRepr else none

def spendsIn (pczt : L.Pczt) (pool : Pool) : List PoolRandomizer :=
  (actions pool pczt).zipIdx.filterMap fun p => (awaited p.1).map fun alpha => ⟨pool, p.2, alpha⟩

theorem collectRandomizers_eq (bundle : L.Bundle) (out : List (ℕ × Bytes32)) :
    collectRandomizers bundle out =
      out ++ bundle.1.zipIdx.filterMap fun p => (awaited p.1).map fun alpha => (p.2, alpha) := by
  unfold collectRandomizers
  generalize bundle.1.zipIdx = actions
  induction actions generalizing out with
  | nil => simp
  | cons p actions ih =>
    rw [List.foldl_cons, ih, List.filterMap_cons]
    unfold awaited
    by_cases hsigned : (L.spendAuthSig p.1).isNone
    · cases halpha : L.alpha p.1 with
      | none => simp [hsigned, halpha]
      | some alpha => simp [hsigned, halpha]
    · simp [hsigned]

theorem extract_eq_ok_iff {pczt : L.Pczt} {randomizers randomizers' : List PoolRandomizer}
    {pool : Pool} : extract pczt randomizers pool = .ok randomizers' ↔
      (∃ bundle, L.parse pool pczt = .ok bundle) ∧
        randomizers' = randomizers ++ spendsIn pczt pool := by
  unfold extract signWith spendsIn
  cases hparse : L.parse pool pczt with
  | error e => simp [Outcome.mapErr, Outcome.bind]
  | ok bundle =>
    simp only [actions_of_parse hparse, Outcome.bind, Outcome.mapErr, collectRandomizers_eq,
      List.nil_append, List.map_filterMap, Option.map_map, Function.comp_def, Outcome.ok.injEq,
      Except.ok.injEq, exists_eq', true_and, eq_comm]

theorem extract_ne_panic {pczt : L.Pczt} {randomizers : List PoolRandomizer} {pool : Pool}
    {message : String} : extract pczt randomizers pool ≠ .panic message := by
  unfold extract signWith
  cases L.parse pool pczt with
  | error e => exact Outcome.err_ne_panic _ message
  | ok bundle => exact Outcome.ok_ne_panic _ message

/-- The first pass finds the spends of all pools, if it can read all bundles. -/
theorem foldM_extract_eq_ok_iff {pczt : L.Pczt} {pools : List Pool}
    {randomizers randomizers' : List PoolRandomizer} :
    Outcome.foldM (extract pczt) randomizers pools = .ok randomizers' ↔
      (∀ pool ∈ pools, ∃ bundle, L.parse pool pczt = .ok bundle) ∧
        randomizers' = randomizers ++ pools.flatMap (spendsIn pczt) := by
  induction pools generalizing randomizers with
  | nil => simp [Outcome.foldM, eq_comm]
  | cons pool pools ih =>
    rw [Outcome.foldM, Outcome.bind_eq_ok_iff, List.forall_mem_cons, List.flatMap_cons,
      ← List.append_assoc, and_assoc]
    simp only [extract_eq_ok_iff, ih]
    constructor
    · rintro ⟨_, ⟨hparse, rfl⟩, hparses, hspends⟩
      exact ⟨hparse, hparses, hspends⟩
    · rintro ⟨hparse, hparses, hspends⟩
      exact ⟨_, ⟨hparse, rfl⟩, hparses, hspends⟩

theorem foldM_extract_ne_panic {pczt : L.Pczt} {pools : List Pool}
    {randomizers : List PoolRandomizer} {message : String} :
    Outcome.foldM (extract pczt) randomizers pools ≠ .panic message := by
  induction pools generalizing randomizers with
  | nil => exact Outcome.ok_ne_panic _ message
  | cons pool pools ih =>
    intro h
    exact extract_ne_panic (Outcome.panic_of_bind_eq_panic h fun _ => ih)

def Awaits (pczt : L.Pczt) (r : PoolRandomizer) : Prop :=
  ∃ action alpha, (actions r.pool pczt)[r.idx]? = some action ∧
    L.spendAuthSig action = none ∧ L.alpha action = some alpha ∧ L.toRepr alpha = r.alpha

theorem mem_spendsIn_iff {pczt : L.Pczt} {pool : Pool} {r : PoolRandomizer} :
    r ∈ spendsIn pczt pool ↔ r.pool = pool ∧ Awaits pczt r := by
  simp only [spendsIn, List.mem_filterMap, Prod.exists, List.mem_zipIdx_iff_getElem?, Awaits,
    awaited, Option.isNone_iff_eq_none]
  constructor
  · rintro ⟨action, idx, haction, hr⟩
    split_ifs at hr with hsigned
    · obtain ⟨alpha, halpha, rfl⟩ := Option.map_eq_some_iff.mp hr
      obtain ⟨scalar, hscalar, rfl⟩ := Option.map_eq_some_iff.mp halpha
      exact ⟨rfl, action, scalar, haction, hsigned, hscalar, rfl⟩
    · cases hr
  · rintro ⟨rfl, action, scalar, haction, hsigned, hscalar, halpha⟩
    refine ⟨action, r.idx, haction, ?_⟩
    rw [if_pos hsigned, hscalar, Option.map_some, halpha, Option.map_some]

theorem mem_spends_iff {pczt : L.Pczt} {pools : List Pool} {r : PoolRandomizer} :
    r ∈ pools.flatMap (spendsIn pczt) ↔ r.pool ∈ pools ∧ Awaits pczt r := by
  rw [List.mem_flatMap]
  constructor
  · rintro ⟨pool, hpool, hr⟩
    obtain ⟨rfl, hawaits⟩ := mem_spendsIn_iff.mp hr
    exact ⟨hpool, hawaits⟩
  · rintro ⟨hpool, hawaits⟩
    exact ⟨r.pool, hpool, mem_spendsIn_iff.mpr ⟨rfl, hawaits⟩⟩

end Libraries

/-- Orchard before Ironwood, and in a pool by the index. -/
def PoolRandomizer.Before (r r' : PoolRandomizer) : Prop :=
  r.pool = .orchard ∧ r'.pool = .ironwood ∨ r.pool = r'.pool ∧ r.idx < r'.idx

namespace Libraries

variable {L : Libraries}

theorem pairwise_spendsIn (pczt : L.Pczt) (pool : Pool) :
    (spendsIn pczt pool).Pairwise PoolRandomizer.Before := by
  have hidx : ((actions pool pczt).zipIdx).Pairwise fun p q => p.2 < q.2 := by
    rw [← List.pairwise_map (f := Prod.snd) (R := (· < ·)), List.zipIdx_map_snd]
    exact List.pairwise_lt_range' _
  refine hidx.filterMap _ ?_
  intro p q hlt r hr r' hr'
  obtain ⟨_, -, rfl⟩ := Option.map_eq_some_iff.mp hr
  obtain ⟨_, -, rfl⟩ := Option.map_eq_some_iff.mp hr'
  exact .inr ⟨rfl, hlt⟩

theorem pairwise_spends (pczt : L.Pczt) (version : TxVersion) :
    ((poolsFor version).flatMap (spendsIn pczt)).Pairwise PoolRandomizer.Before := by
  have hpools : (poolsFor version).Pairwise fun pool pool' => pool = .orchard ∧ pool' = .ironwood := by
    cases version <;> simp [poolsFor]
  rw [List.flatMap, List.pairwise_flatten]
  constructor
  · intro spends hspends
    obtain ⟨pool, -, rfl⟩ := List.mem_map.mp hspends
    exact pairwise_spendsIn pczt pool
  · rw [List.pairwise_map]
    refine hpools.imp ?_
    rintro pool pool' ⟨rfl, rfl⟩ r hr r' hr'
    exact .inl ⟨(mem_spendsIn_iff.mp hr).1, (mem_spendsIn_iff.mp hr').1⟩

end Libraries

def announcement (r : PoolRandomizer) : Terminal.Event :=
  ⟨.println ("Randomizer #" ++ toString r.idx ++ " (" ++ r.pool.label ++ "): " ++
    hexEncode r.alpha.toList), ()⟩

def prompt (r : PoolRandomizer) (answer : Option String) : List Terminal.Event :=
  [⟨.println ("Input hex-encoded signature #" ++ toString r.idx ++ " (" ++ r.pool.label ++ "): "),
    ()⟩, ⟨.readLine, answer⟩]

def typed (answer : Option String) : Option Bytes64 :=
  answer.bind fun line => (hexDecode (trim line)).bind (toArray 64)

def assign (r : PoolRandomizer) (signature : Bytes64) : PoolSignature :=
  ⟨r.pool, r.idx, signature⟩

section Prompts

variable {es : List Terminal.Event}

theorem ends_println_iff {line : String} {o : Outcome Error Unit} :
    (println line).Ends () es o () ↔ es = [⟨.println line, ()⟩] ∧ .ok () = o := by
  rw [println, Method.ends_query_iff]
  constructor
  · rintro ⟨⟨⟩, rfl, rfl, -⟩
    exact ⟨rfl, rfl⟩
  · rintro ⟨rfl, rfl⟩
    exact ⟨(), rfl, rfl, rfl⟩

theorem ends_println_bind_iff {α : Type} {line : String} {f : Unit → Run α} {o : Outcome Error α} :
    (println line >>= f).Ends () es o () ↔
      ∃ es', es = ⟨.println line, ()⟩ :: es' ∧ (f ()).Ends () es' o () := by
  constructor
  · intro h
    obtain ⟨answer, es', rfl, hrest⟩ := Method.ends_query_bind_iff.mp h
    exact ⟨es', rfl, hrest⟩
  · rintro ⟨es', rfl, hrest⟩
    exact Method.ends_query_bind_iff.mpr ⟨(), es', rfl, hrest⟩

theorem ends_printRandomizers {rs : List PoolRandomizer} {o : Outcome Error Unit}
    (h : (Method.foldM (fun () r => printRandomizer r) () rs).Ends () es o ()) :
    es = rs.map announcement ∧ o = .ok () := by
  induction rs generalizing es with
  | nil =>
    obtain ⟨rfl, rfl, -⟩ := Method.ends_foldM_nil_iff.mp h
    exact ⟨rfl, rfl⟩
  | cons r rs ih =>
    rcases Method.ends_foldM_cons_iff.mp h with ⟨_, _, es₁, es₂, rfl, hfirst, hrest⟩ |
      ⟨e, hfirst, -⟩ | ⟨message, hfirst, -⟩
    · obtain ⟨rfl, -⟩ := ends_println_iff.mp hfirst
      obtain ⟨rfl, rfl⟩ := ih hrest
      exact ⟨rfl, rfl⟩
    · cases (ends_println_iff.mp hfirst).2
    · cases (ends_println_iff.mp hfirst).2

theorem ends_readLine_bind_iff {α : Type} {f : String → Run α} {o : Outcome Error α} :
    (readLine >>= f).Ends () es o () ↔ ∃ answer es', es = ⟨.readLine, answer⟩ :: es' ∧
      (Method.lift (.okOr .io answer) >>= f).Ends () es' o () :=
  Program.returns_ask_iff

theorem ends_promptForSignature {signatures : List PoolSignature} {r : PoolRandomizer}
    {o : Outcome Error (List PoolSignature)}
    (h : (promptForSignature signatures r).Ends () es o ()) :
    ∃ answer, es = prompt r answer ∧
      ((∃ signature, typed answer = some signature ∧ o = .ok (signatures ++ [assign r signature])) ∨
        typed answer = none ∧ ∃ e, o = .err e) := by
  obtain ⟨es₁, rfl, hread⟩ := ends_println_bind_iff.mp h
  obtain ⟨answer, es₃, rfl, hrest⟩ := ends_readLine_bind_iff.mp hread
  have hend : es₃ = [] ∧ ((∃ signature, typed answer = some signature ∧
      o = .ok (signatures ++ [assign r signature])) ∨ typed answer = none ∧ ∃ e, o = .err e) := by
    -- three ways to type no signature: no line, no hex, or not 64 bytes
    cases answer with
    | none =>
      obtain ⟨rfl, rfl, -⟩ := Method.ends_lift_iff.mp hrest
      exact ⟨rfl, .inr ⟨rfl, _, rfl⟩⟩
    | some line =>
      rw [Outcome.okOr, Method.lift_ok_bind] at hrest
      rw [typed, Option.bind_some]
      cases hbytes : hexDecode (trim line) with
      | none =>
        rw [hbytes, Outcome.okOr, Method.lift_err_bind] at hrest
        obtain ⟨rfl, rfl, -⟩ := Method.ends_lift_iff.mp hrest
        exact ⟨rfl, .inr ⟨rfl, _, rfl⟩⟩
      | some bytes =>
        rw [hbytes, Outcome.okOr, Method.lift_ok_bind] at hrest
        rw [Option.bind_some]
        cases hsignature : toArray 64 bytes with
        | none =>
          rw [hsignature, Outcome.okOr, Method.lift_err_bind] at hrest
          obtain ⟨rfl, rfl, -⟩ := Method.ends_lift_iff.mp hrest
          exact ⟨rfl, .inr ⟨rfl, _, rfl⟩⟩
        | some signature =>
          rw [hsignature, Outcome.okOr, Method.lift_ok_bind] at hrest
          obtain ⟨rfl, rfl, -⟩ := Method.ends_pure_iff.mp hrest
          exact ⟨rfl, .inl ⟨signature, rfl, rfl⟩⟩
  obtain ⟨rfl, hend⟩ := hend
  exact ⟨answer, rfl, hend⟩

/-- The loop asks for the signatures in order, up to a line that is none. -/
theorem ends_promptLoop {rs : List PoolRandomizer} {signatures : List PoolSignature}
    {o : Outcome Error (List PoolSignature)}
    (h : (Method.foldM promptForSignature signatures rs).Ends () es o ()) :
    ∃ answers, es = (List.zipWith prompt rs answers).flatten ∧
      ((∃ entered, answers.map typed = entered.map some ∧ entered.length = rs.length ∧
          o = .ok (signatures ++ List.zipWith assign rs entered)) ∨
        ∃ good bad e, answers = good ++ [bad] ∧ answers.length ≤ rs.length ∧ typed bad = none ∧
          o = .err e) := by
  -- the signatures read so far are the accumulator
  induction rs generalizing es signatures with
  | nil =>
    obtain ⟨rfl, rfl, -⟩ := Method.ends_foldM_nil_iff.mp h
    exact ⟨[], rfl, .inl ⟨[], rfl, rfl, by rw [List.zipWith_nil_left, List.append_nil]⟩⟩
  | cons r rs ih =>
    rcases Method.ends_foldM_cons_iff.mp h with ⟨_, _, es₁, es₂, rfl, hfirst, hrest⟩ |
      ⟨e, hfirst, rfl⟩ | ⟨message, hfirst, -⟩
    · obtain ⟨answer, rfl, hanswer⟩ := ends_promptForSignature hfirst
      rcases hanswer with ⟨signature, htyped, hsignatures⟩ | ⟨-, e, he⟩
      · rw [Outcome.ok.inj hsignatures] at hrest
        obtain ⟨answers, rfl, hanswers⟩ := ih hrest
        refine ⟨answer :: answers, rfl, ?_⟩
        rcases hanswers with ⟨entered, hentered, hlength, rfl⟩ |
          ⟨good, bad, e, rfl, hlength, hbad, rfl⟩
        · refine .inl ⟨signature :: entered, ?_, ?_, ?_⟩
          · rw [List.map_cons, List.map_cons, htyped, hentered]
          · rw [List.length_cons, List.length_cons, hlength]
          · rw [List.append_assoc, List.singleton_append, List.zipWith_cons_cons]
        · refine .inr ⟨answer :: good, bad, e, rfl, ?_, hbad, rfl⟩
          exact Nat.succ_le_succ hlength
      · cases he
    · obtain ⟨answer, rfl, hanswer⟩ := ends_promptForSignature hfirst
      rcases hanswer with ⟨signature, -, hsignatures⟩ | ⟨hbad, -⟩
      · cases hsignatures
      · refine ⟨[answer], by simp, .inr ⟨[], answer, e, rfl, ?_, hbad, rfl⟩⟩
        exact Nat.succ_le_succ (Nat.zero_le _)
    · obtain ⟨_, -, ⟨_, -, ho⟩ | ⟨-, _, ho⟩⟩ := ends_promptForSignature hfirst
      · cases ho
      · cases ho

/-- All randomizers are printed before any signature is asked for. -/
theorem ends_promptForSignatures {rs : List PoolRandomizer}
    {o : Outcome Error (List PoolSignature)} (h : (promptForSignatures rs).Ends () es o ()) :
    ∃ answers, es = rs.map announcement ++ (List.zipWith prompt rs answers).flatten ∧
      ((∃ entered, answers.map typed = entered.map some ∧ entered.length = rs.length ∧
          o = .ok (List.zipWith assign rs entered)) ∨
        ∃ good bad e, answers = good ++ [bad] ∧ answers.length ≤ rs.length ∧ typed bad = none ∧
          o = .err e) := by
  rcases Method.ends_bind_iff.mp h with ⟨_, _, es₁, es₂, rfl, hprint, hread⟩ | ⟨e, hprint, -⟩ |
    ⟨message, hprint, -⟩
  · obtain ⟨rfl, -⟩ := ends_printRandomizers hprint
    obtain ⟨answers, rfl, hanswers⟩ := ends_promptLoop hread
    exact ⟨answers, rfl, hanswers⟩
  · cases (ends_printRandomizers hprint).2
  · cases (ends_printRandomizers hprint).2

theorem yields_promptForSignature (signatures : List PoolSignature) (r : PoolRandomizer)
    {answer : Option String} {signature : Bytes64} (h : typed answer = some signature) :
    (promptForSignature signatures r).Yields () (prompt r answer)
      (signatures ++ [assign r signature]) () := by
  obtain ⟨line, rfl, hline⟩ := Option.bind_eq_some_iff.mp h
  obtain ⟨bytes, hbytes, hsignature⟩ := Option.bind_eq_some_iff.mp hline
  refine ends_println_bind_iff.mpr ⟨_, rfl, ends_readLine_bind_iff.mpr ⟨some line, [], rfl, ?_⟩⟩
  rw [Outcome.okOr, Method.lift_ok_bind, hbytes, Outcome.okOr, Method.lift_ok_bind, hsignature,
    Outcome.okOr, Method.lift_ok_bind]
  exact Method.ends_pure_iff.mpr ⟨rfl, rfl, rfl⟩

theorem yields_promptLoop (signatures : List PoolSignature) {rs : List PoolRandomizer}
    {answers : List (Option String)} {entered : List Bytes64}
    (htyped : answers.map typed = entered.map some) (hlength : entered.length = rs.length) :
    (Method.foldM promptForSignature signatures rs).Yields ()
      (List.zipWith prompt rs answers).flatten (signatures ++ List.zipWith assign rs entered) () := by
  induction rs generalizing signatures answers entered with
  | nil =>
    rw [List.zipWith_nil_left, List.zipWith_nil_left, List.append_nil]
    exact .foldM_nil
  | cons r rs ih =>
    cases entered with
    | nil => cases hlength
    | cons signature entered =>
      cases answers with
      | nil => cases htyped
      | cons answer answers =>
        obtain ⟨hanswer, hanswers⟩ := List.cons.inj htyped
        rw [List.zipWith_cons_cons, List.flatten_cons, List.zipWith_cons_cons, List.append_cons]
        exact (yields_promptForSignature signatures r hanswer).foldM_cons
          (ih _ hanswers (Nat.succ.inj hlength))

theorem yields_printRandomizers (rs : List PoolRandomizer) :
    (Method.foldM (fun () r => printRandomizer r) () rs).Yields () (rs.map announcement) () () := by
  induction rs with
  | nil => exact .foldM_nil
  | cons r rs ih =>
    have hprint : (printRandomizer r).Yields () [announcement r] () () :=
      ends_println_iff.mpr ⟨rfl, rfl⟩
    exact hprint.foldM_cons ih

theorem yields_promptForSignatures {rs : List PoolRandomizer} {answers : List (Option String)}
    {entered : List Bytes64} (htyped : answers.map typed = entered.map some)
    (hlength : entered.length = rs.length) :
    (promptForSignatures rs).Yields ()
      (rs.map announcement ++ (List.zipWith prompt rs answers).flatten)
      (List.zipWith assign rs entered) () :=
  (yields_printRandomizers rs).bind (yields_promptLoop [] htyped hlength)

end Prompts

namespace Libraries

variable {L : Libraries} {verifies : L.Action → Bytes32 → L.Signature → Prop} {sighash : Bytes32}
  {signatures : List PoolSignature} {pczt signed : L.Pczt} {pool pool' : Pool} {pools : List Pool}

theorem apply_ne_panic {action : L.Action} {sig : Bytes64} {message : String} :
    apply sighash action sig ≠ .panic message := by
  unfold apply
  cases L.applySignature action sighash (L.signatureFrom sig) with
  | ok action' => exact Outcome.ok_ne_panic action' message
  | error e => exact Outcome.err_ne_panic _ message

theorem apply_eq_ok_iff {action action' : L.Action} {sig : Bytes64} :
    apply sighash action sig = .ok action' ↔
      L.applySignature action sighash (L.signatureFrom sig) = .ok action' := by
  unfold apply
  cases L.applySignature action sighash (L.signatureFrom sig) <;> simp

/-- A turn applies the signatures of its pool and leaves the other pool as it is. -/
theorem inject_eq_ok (hL : L.Lawful verifies)
    (h : inject sighash signatures pczt pool = .ok signed) :
    Outcome.foldM (Outcome.patch (apply sighash)) (actions pool pczt) (forPool pool signatures) =
        .ok (actions pool signed) ∧
      ∀ pool', pool' ≠ pool → L.parse pool' signed = L.parse pool' pczt := by
  unfold inject at h
  split_ifs at h with hnone
  · rw [hnone, ← Outcome.ok.inj h]
    exact ⟨rfl, fun _ _ => rfl⟩
  · obtain ⟨⟨_, pczt'⟩, hsigned, heq⟩ := Outcome.bind_eq_ok_iff.mp h
    obtain rfl : pczt' = signed := Outcome.ok.inj heq
    rw [Outcome.mapErr_eq_ok_iff, signWith] at hsigned
    cases hparse : L.parse pool pczt with
    | error e =>
      rw [hparse] at hsigned
      cases hsigned
    | ok bundle =>
      rw [hparse] at hsigned
      obtain ⟨⟨_, bundle'⟩, hclosure, hwritten⟩ := Outcome.bind_eq_ok_iff.mp hsigned
      obtain ⟨-, rfl⟩ := Prod.mk.inj (Outcome.ok.inj hwritten)
      obtain ⟨bundle'', happly, heq'⟩ := Outcome.bind_eq_ok_iff.mp hclosure
      obtain ⟨-, rfl⟩ := Prod.mk.inj (Outcome.ok.inj heq')
      obtain ⟨actions', hpatch, hbundle⟩ := Outcome.bind_eq_ok_iff.mp happly
      obtain rfl := Outcome.ok.inj hbundle
      obtain ⟨data', hreparse⟩ :=
        hL.parse_serializeFrom hparse (Outcome.length_of_foldM_patch hpatch)
      rw [actions_of_parse hparse, actions_of_parse hreparse]
      exact ⟨hpatch, fun pool' hne => hL.parse_other hne⟩

theorem foldM_inject_eq_ok (hL : L.Lawful verifies) (hnodup : pools.Nodup)
    (h : Outcome.foldM (inject sighash signatures) pczt pools = .ok signed) :
    (∀ pool ∈ pools, Outcome.foldM (Outcome.patch (apply sighash)) (actions pool pczt)
        (forPool pool signatures) = .ok (actions pool signed)) ∧
      ∀ pool, pool ∉ pools → L.parse pool signed = L.parse pool pczt := by
  induction pools generalizing pczt with
  | nil =>
    rw [Outcome.ok.inj h]
    exact ⟨fun pool hpool => absurd hpool List.not_mem_nil, fun _ _ => rfl⟩
  | cons pool pools ih =>
    obtain ⟨pczt', hfirst, hrest⟩ := Outcome.bind_eq_ok_iff.mp h
    obtain ⟨hpatch, hother⟩ := inject_eq_ok hL hfirst
    rw [List.nodup_cons] at hnodup
    obtain ⟨hlater, hkept⟩ := ih hnodup.2 hrest
    constructor
    · intro pool' hpool'
      rcases List.mem_cons.mp hpool' with rfl | hmem
      · rw [hpatch, actions, actions, hkept _ hnodup.1]
      · have hne : pool' ≠ pool := by
          rintro rfl
          exact hnodup.1 hmem
        have hsame : actions pool' pczt' = actions pool' pczt := by
          rw [actions, actions, hother pool' hne]
        rw [← hlater pool' hmem, hsame]
    · intro pool' hpool'
      rw [List.mem_cons, not_or] at hpool'
      rw [hkept pool' hpool'.2, hother pool' hpool'.1]

/-- Every signature is for an action that its pool has. -/
def InBounds (pczt : L.Pczt) (signatures : List PoolSignature) : Prop :=
  ∀ s ∈ signatures, s.idx < (actions s.pool pczt).length

theorem inject_ne_panic (hbounds : InBounds pczt signatures) {message : String} :
    inject sighash signatures pczt pool ≠ .panic message := by
  unfold inject
  split_ifs
  · exact Outcome.ok_ne_panic pczt message
  · unfold signWith
    cases hparse : L.parse pool pczt with
    | error e => exact Outcome.err_ne_panic _ message
    | ok bundle =>
      have hpatch : ∀ m, Outcome.foldM (Outcome.patch (apply sighash)) bundle.1
          (forPool pool signatures) ≠ .panic m := by
        intro m
        apply Outcome.foldM_patch_ne_panic fun _ _ _ => apply_ne_panic
        intro p hp
        obtain ⟨s, hs, rfl⟩ := List.mem_map.mp hp
        obtain ⟨hmem, hpool⟩ := List.mem_filter.mp hs
        have hlt := hbounds s hmem
        rwa [of_decide_eq_true hpool, actions_of_parse hparse] at hlt
      unfold applySignatures
      cases hresult : Outcome.foldM (Outcome.patch (apply sighash)) bundle.1
          (forPool pool signatures) with
      | ok actions' => simp [hresult, Outcome.bind, Outcome.mapErr]
      | err e => simp [hresult, Outcome.bind, Outcome.mapErr]
      | panic m => exact absurd hresult (hpatch m)

theorem foldM_inject_ne_panic (hL : L.Lawful verifies) (hbounds : InBounds pczt signatures)
    {message : String} : Outcome.foldM (inject sighash signatures) pczt pools ≠ .panic message := by
  induction pools generalizing pczt with
  | nil => exact Outcome.ok_ne_panic _ message
  | cons pool pools ih =>
    intro h
    rw [Outcome.foldM] at h
    cases hfirst : inject sighash signatures pczt pool with
    | ok pczt' =>
      rw [hfirst] at h
      apply ih _ h
      obtain ⟨hpatch, hother⟩ := inject_eq_ok hL hfirst
      intro s hs
      have hlt := hbounds s hs
      by_cases hpool : s.pool = pool
      · rw [hpool] at hlt ⊢
        rwa [Outcome.length_of_foldM_patch hpatch]
      · rwa [actions, hother s.pool hpool]
    | err e =>
      rw [hfirst] at h
      cases h
    | panic m => exact inject_ne_panic hbounds hfirst

structure Supported (L : Libraries) (pczt : L.Pczt) (txData : L.TransactionData)
    (sighash : Bytes32) : Prop where
  intoEffects : L.intoEffects pczt = .ok txData
  sighash : L.version txData = .v6 ∧
      L.v6SignatureHash txData (L.digest txData) = sighash.toList ∨
    L.version txData = .v5 ∧ L.hasOrchardBundle txData = true ∧
      L.v5SignatureHash txData (L.digest txData) = sighash.toList

theorem toArray_toList {n : ℕ} (v : Vector UInt8 n) : toArray n v.toList = some v := by
  unfold toArray
  split_ifs with hsize
  · rfl
  · exact absurd (by simp) hsize

theorem Supported.sighashForPczt_eq {txData : L.TransactionData}
    (h : L.Supported pczt txData sighash) :
    L.sighashForPczt pczt = .ok (L.version txData, sighash) := by
  unfold sighashForPczt
  rw [h.intoEffects]
  rcases h.sighash with ⟨hversion, hhash⟩ | ⟨hversion, hbundle, hhash⟩
  · simp [hversion, hhash, Outcome.bind, toArray_toList, Outcome.okOr]
  · simp [hversion, hbundle, hhash, Outcome.bind, toArray_toList, Outcome.okOr]

/-- The signed PCZT: each spend carries the signature entered for it, which was accepted, and no
other action has changed. -/
structure SignedFor (verifies : L.Action → Bytes32 → L.Signature → Prop) (sighash : Bytes32)
    (spends : List PoolRandomizer) (entered : List Bytes64) (pczt signed : L.Pczt) : Prop where
  length : ∀ pool, (actions pool signed).length = (actions pool pczt).length
  spend : ∀ r signature, (r, signature) ∈ spends.zip entered → ∃ action action',
    (actions r.pool pczt)[r.idx]? = some action ∧
    L.applySignature action sighash (L.signatureFrom signature) = .ok action' ∧
    verifies action sighash (L.signatureFrom signature) ∧
    (actions r.pool signed)[r.idx]? = some action' ∧
    L.spendAuthSig action' = some (L.signatureFrom signature)
  other : ∀ pool idx, (∀ r ∈ spends, ¬(r.pool = pool ∧ r.idx = idx)) →
    (actions pool signed)[idx]? = (actions pool pczt)[idx]?

theorem mem_forPool_iff {p : ℕ × Bytes64} :
    p ∈ forPool pool signatures ↔ (⟨pool, p.1, p.2⟩ : PoolSignature) ∈ signatures := by
  unfold forPool
  rw [List.mem_map]
  constructor
  · rintro ⟨s, hs, rfl⟩
    obtain ⟨hmem, hpool⟩ := List.mem_filter.mp hs
    rwa [← of_decide_eq_true hpool]
  · intro hmem
    exact ⟨_, List.mem_filter.mpr ⟨hmem, decide_eq_true rfl⟩, rfl⟩

/-- The signatures keep the positions of the spends that they were entered for. -/
theorem nodup_forPool {spends : List PoolRandomizer} (entered : List Bytes64)
    (h : spends.Pairwise PoolRandomizer.Before) (pool : Pool) :
    ((forPool pool (List.zipWith assign spends entered)).map Prod.fst).Nodup := by
  -- in a pool the indices increase, so no action is signed twice
  have hsigned : (List.zipWith assign spends entered).Pairwise fun s s' =>
      s.pool = s'.pool → s.idx < s'.idx := by
    induction spends generalizing entered with
    | nil => exact List.Pairwise.nil
    | cons r spends ih =>
      cases entered with
      | nil => exact List.Pairwise.nil
      | cons signature entered =>
        rw [List.pairwise_cons] at h
        rw [List.zipWith_cons_cons, List.pairwise_cons]
        refine ⟨?_, ih entered h.2⟩
        intro s hs hpool
        rw [← List.map_uncurry_zip_eq_zipWith] at hs
        obtain ⟨⟨r', signature'⟩, hzip, rfl⟩ := List.mem_map.mp hs
        rcases h.1 r' (List.of_mem_zip hzip).1 with ⟨horchard, hironwood⟩ | ⟨-, hlt⟩
        · have hsame : r.pool = r'.pool := hpool
          rw [horchard, hironwood] at hsame
          cases hsame
        · exact hlt
  have hlt : (forPool pool (List.zipWith assign spends entered)).Pairwise
      fun p p' => p.1 < p'.1 := by
    unfold forPool
    rw [List.pairwise_map]
    refine (hsigned.filter _).imp_of_mem ?_
    intro s s' hs hs' hbefore
    have hpool := of_decide_eq_true (List.mem_filter.mp hs).2
    have hpool' := of_decide_eq_true (List.mem_filter.mp hs').2
    exact hbefore (hpool.trans hpool'.symm)
  rw [List.Nodup, List.pairwise_map]
  exact hlt.imp fun hlt => Nat.ne_of_lt hlt

theorem assign_mem {spends : List PoolRandomizer} {entered : List Bytes64} {s : PoolSignature} :
    s ∈ List.zipWith assign spends entered ↔ ∃ r signature, (r, signature) ∈ spends.zip entered ∧
      assign r signature = s := by
  rw [← List.map_uncurry_zip_eq_zipWith, List.mem_map]
  simp [Prod.exists, Function.uncurry]

theorem inBounds_assign {spends : List PoolRandomizer} (entered : List Bytes64)
    (h : ∀ r ∈ spends, Awaits pczt r) : InBounds pczt (List.zipWith assign spends entered) := by
  intro s hs
  obtain ⟨r, signature, hzip, rfl⟩ := assign_mem.mp hs
  obtain ⟨action, _, haction, -⟩ := h r (List.of_mem_zip hzip).1
  exact (List.getElem?_eq_some_iff.mp haction).1

theorem signedFor_of_foldM_inject (hL : L.Lawful verifies) {spends : List PoolRandomizer}
    {entered : List Bytes64} (hnodup : pools.Nodup)
    (hbefore : spends.Pairwise PoolRandomizer.Before) (hpools : ∀ r ∈ spends, r.pool ∈ pools)
    (h : Outcome.foldM (inject sighash (List.zipWith assign spends entered)) pczt pools =
      .ok signed) : SignedFor verifies sighash spends entered pczt signed := by
  obtain ⟨hpatch, hkept⟩ := foldM_inject_eq_ok hL hnodup h
  -- a pool that the version does not have is not patched at all
  have hkeptActions : ∀ pool, pool ∉ pools → actions pool signed = actions pool pczt := by
    intro pool hpool
    rw [actions, actions, hkept pool hpool]
  refine ⟨?_, ?_, ?_⟩
  · intro pool
    by_cases hpool : pool ∈ pools
    · exact Outcome.length_of_foldM_patch (hpatch pool hpool)
    · rw [hkeptActions pool hpool]
  · intro r signature hzip
    have hpool := hpools r (List.of_mem_zip hzip).1
    have hmem : (r.idx, signature) ∈ forPool r.pool (List.zipWith assign spends entered) :=
      mem_forPool_iff.mpr (assign_mem.mpr ⟨r, signature, hzip, rfl⟩)
    obtain ⟨-, hpatched⟩ :=
      Outcome.of_foldM_patch (hpatch r.pool hpool) (nodup_forPool entered hbefore r.pool)
    obtain ⟨action, action', haction, happly, haction'⟩ := hpatched _ hmem
    have hok := apply_eq_ok_iff.mp happly
    exact ⟨action, action', haction, hok, hL.exists_apply_iff.mp ⟨action', hok⟩, haction',
      hL.spendAuthSig_apply hok⟩
  · intro pool idx hnone
    by_cases hpool : pool ∈ pools
    · obtain ⟨hother, -⟩ :=
        Outcome.of_foldM_patch (hpatch pool hpool) (nodup_forPool entered hbefore pool)
      apply hother
      intro hidx
      obtain ⟨p, hp, rfl⟩ := List.mem_map.mp hidx
      obtain ⟨r, signature, hzip, hassign⟩ := assign_mem.mp (mem_forPool_iff.mp hp)
      exact hnone r (List.of_mem_zip hzip).1
        ⟨congrArg PoolSignature.pool hassign, congrArg PoolSignature.idx hassign⟩
    · rw [hkeptActions pool hpool]

theorem nodup_poolsFor (version : TxVersion) : (poolsFor version).Nodup := by
  cases version <;> simp [poolsFor]

/-- After the prompts nothing more is asked, and no panic is reached. -/
theorem ends_injectAndSerialize (hL : L.Lawful verifies) (hbounds : InBounds pczt signatures)
    {es : List Terminal.Event} {outcome : Outcome Error Bytes}
    (h : (do
      let signed ← (Method.lift (Outcome.foldM (inject sighash signatures) pczt pools) : Run L.Pczt)
      match L.serialize signed with
      | .ok bytes => pure bytes
      | .error e => Method.fail (.eyre ("failed to serialize signed PCZT: " ++ e)) :
        Run Bytes).Ends () es outcome ()) :
    es = [] ∧ ((∃ e, outcome = .err e) ∨ ∃ signed bytes,
      Outcome.foldM (inject sighash signatures) pczt pools = .ok signed ∧
        L.serialize signed = .ok bytes ∧ outcome = .ok bytes) := by
  cases hinject : Outcome.foldM (inject sighash signatures) pczt pools with
  | panic message => exact absurd hinject (foldM_inject_ne_panic hL hbounds)
  | err e =>
    rw [hinject, Method.lift_err_bind] at h
    obtain ⟨rfl, rfl, -⟩ := Method.ends_lift_iff.mp h
    exact ⟨rfl, .inl ⟨e, rfl⟩⟩
  | ok signed =>
    rw [hinject, Method.lift_ok_bind] at h
    cases hbytes : L.serialize signed with
    | ok bytes =>
      rw [hbytes] at h
      obtain ⟨rfl, rfl, -⟩ := Method.ends_pure_iff.mp h
      exact ⟨rfl, .inr ⟨signed, bytes, rfl, hbytes, rfl⟩⟩
    | error e =>
      rw [hbytes] at h
      obtain ⟨rfl, rfl, -⟩ := Method.ends_fail_iff.mp h
      exact ⟨rfl, .inl ⟨_, rfl⟩⟩

end Libraries
open Libraries

/-- For a supported PCZT the signatures are asked for the spends that await one, in order. An
output is written only if every line typed is a signature that was accepted, and then each spend
carries its own signature and no other action has changed. -/
theorem signPczt_signs_each_spend {L : Libraries}
    {verifies : L.Action → Bytes32 → L.Signature → Prop} (hL : L.Lawful verifies) {pczt : L.Pczt}
    {txData : L.TransactionData} {sighash : Bytes32} (hsupported : L.Supported pczt txData sighash)
    {es : List Terminal.Event} {outcome : Outcome Error Bytes}
    (h : (signPczt L pczt).Ends () es outcome ()) :
    ∃ spends answers, spends.Pairwise PoolRandomizer.Before ∧
      es = ⟨.println ("SIGHASH: " ++ hexEncode sighash.toList), ()⟩ ::
        (spends.map announcement ++ (List.zipWith prompt spends answers).flatten) ∧
      answers.length ≤ spends.length ∧
      ((∀ pool ∈ poolsFor (L.version txData), ∃ bundle, L.parse pool pczt = .ok bundle) →
        (∀ r, r ∈ spends ↔ r.pool ∈ poolsFor (L.version txData) ∧ Awaits pczt r) ∧
        (answers.length < spends.length → ∃ bad ∈ answers, typed bad = none)) ∧
      (∀ message, outcome ≠ .panic message) ∧
      ∀ bytes, outcome = .ok bytes →
        (∀ pool ∈ poolsFor (L.version txData), ∃ bundle, L.parse pool pczt = .ok bundle) ∧
        ∃ entered signed, answers.map typed = entered.map some ∧
          entered.length = spends.length ∧
          SignedFor verifies sighash spends entered pczt signed ∧
          L.serialize signed = .ok bytes := by
  rw [signPczt, hsupported.sighashForPczt_eq, Method.lift_ok_bind] at h
  obtain ⟨es₁, rfl, hsign⟩ := ends_println_bind_iff.mp h
  cases hextract : Outcome.foldM (extract pczt) [] (poolsFor (L.version txData)) with
  | panic message => exact absurd hextract foldM_extract_ne_panic
  -- a bundle that cannot be read ends the first pass, before anything is asked
  | err e =>
    rw [hextract, Method.lift_err_bind] at hsign
    obtain ⟨rfl, rfl, -⟩ := Method.ends_lift_iff.mp hsign
    refine ⟨[], [], List.Pairwise.nil, rfl, Nat.le_refl 0, ?_, Outcome.err_ne_panic e,
      fun _ h => absurd h (Outcome.err_ne_ok _ _)⟩
    intro hparse
    have hok : Outcome.foldM (extract pczt) [] (poolsFor (L.version txData)) = .ok _ :=
      foldM_extract_eq_ok_iff.mpr ⟨hparse, rfl⟩
    rw [hextract] at hok
    cases hok
  | ok spends =>
    rw [hextract, Method.lift_ok_bind] at hsign
    obtain ⟨hparse, hspends⟩ := foldM_extract_eq_ok_iff.mp hextract
    rw [List.nil_append] at hspends
    have hmem : ∀ r, r ∈ spends ↔ r.pool ∈ poolsFor (L.version txData) ∧ Awaits pczt r := by
      intro r
      rw [hspends, mem_spends_iff]
    have hbefore : spends.Pairwise PoolRandomizer.Before := by
      rw [hspends]
      exact pairwise_spends pczt (L.version txData)
    rcases Method.ends_bind_iff.mp hsign with ⟨signatures, _, es₂, es₃, rfl, hprompt, hrest⟩ |
      ⟨e, hprompt, rfl⟩ | ⟨message, hprompt, rfl⟩
    -- all signatures were typed, and the second pass applies them
    · obtain ⟨answers, rfl, hanswers⟩ := ends_promptForSignatures hprompt
      rcases hanswers with ⟨entered, htyped, hlength, hok⟩ | ⟨_, _, e, _, _, _, herr⟩
      · rw [Outcome.ok.inj hok] at hrest
        have hall : answers.length = spends.length := by
          have hsame := congrArg List.length htyped
          rwa [List.length_map, List.length_map, hlength] at hsame
        have hshort : answers.length < spends.length → ∃ bad ∈ answers, typed bad = none :=
          fun hlt => absurd hall (Nat.ne_of_lt hlt)
        obtain ⟨rfl, hresult⟩ := ends_injectAndSerialize hL
          (inBounds_assign entered fun r hr => ((hmem r).mp hr).2) hrest
        rw [List.append_nil]
        rcases hresult with ⟨e, rfl⟩ | ⟨signed, bytes, hinject, hbytes, rfl⟩
        · exact ⟨spends, answers, hbefore, rfl, Nat.le_of_eq hall, fun _ => ⟨hmem, hshort⟩,
            Outcome.err_ne_panic e, fun _ h => absurd h (Outcome.err_ne_ok _ _)⟩
        · refine ⟨spends, answers, hbefore, rfl, Nat.le_of_eq hall, fun _ => ⟨hmem, hshort⟩,
            Outcome.ok_ne_panic bytes, ?_⟩
          intro bytes' heq
          rw [← Outcome.ok.inj heq]
          exact ⟨hparse, entered, signed, htyped, hlength,
            signedFor_of_foldM_inject hL (nodup_poolsFor _) hbefore
              (fun r hr => ((hmem r).mp hr).1) hinject, hbytes⟩
      · cases herr
    -- the first line that is no signature ends the prompts, and nothing is applied
    · obtain ⟨answers, rfl, hanswers⟩ := ends_promptForSignatures hprompt
      rcases hanswers with ⟨entered, htyped, hlength, hok⟩ |
        ⟨good, bad, _, hgood, hlength, hbad, -⟩
      · cases hok
      · refine ⟨spends, answers, hbefore, rfl, hlength, fun _ => ⟨hmem, fun _ => ⟨bad, ?_, hbad⟩⟩,
          Outcome.err_ne_panic e, fun _ h => absurd h (Outcome.err_ne_ok _ _)⟩
        rw [hgood]
        exact List.mem_append_right good List.mem_cons_self
    · obtain ⟨_, -, ⟨_, -, -, hok⟩ | ⟨_, _, _, -, -, -, herr⟩⟩ := ends_promptForSignatures hprompt
      · cases hok
      · cases herr

/-- When all lines hold signatures and these are accepted, the output is written. -/
theorem signPczt_of_accepted {L : Libraries} {pczt signed : L.Pczt} {txData : L.TransactionData}
    {sighash : Bytes32} (hsupported : L.Supported pczt txData sighash)
    {spends : List PoolRandomizer} {answers : List (Option String)} {entered : List Bytes64}
    {bytes : Bytes}
    (hspends : Outcome.foldM (extract pczt) [] (poolsFor (L.version txData)) = .ok spends)
    (htyped : answers.map typed = entered.map some) (hlength : entered.length = spends.length)
    (hsigned : Outcome.foldM (inject sighash (List.zipWith assign spends entered)) pczt
      (poolsFor (L.version txData)) = .ok signed)
    (hbytes : L.serialize signed = .ok bytes) :
    (signPczt L pczt).Ends () (⟨.println ("SIGHASH: " ++ hexEncode sighash.toList), ()⟩ ::
      (spends.map announcement ++ (List.zipWith prompt spends answers).flatten)) (.ok bytes) () := by
  rw [signPczt, hsupported.sighashForPczt_eq, Method.lift_ok_bind]
  refine ends_println_bind_iff.mpr ⟨_, rfl, ?_⟩
  rw [hspends, Method.lift_ok_bind]
  refine Method.ends_bind_iff.mpr (.inl ⟨_, (), _, [], (List.append_nil _).symm,
    yields_promptForSignatures htyped hlength, ?_⟩)
  rw [hsigned, Method.lift_ok_bind, hbytes]
  exact Method.ends_pure_iff.mpr ⟨rfl, rfl, rfl⟩

structure SampleAction where
  spendAuthSig : Option Bytes64
  alpha : Option Bytes32
  key : UInt8

def sampleVerifies (action : SampleAction) (_ : Bytes32) (signature : Bytes64) : Prop :=
  signature[0] = action.key

def sampleApply (action : SampleAction) (_ : Bytes32) (signature : Bytes64) :
    Except String SampleAction :=
  if signature[0] = action.key then .ok { action with spendAuthSig := some signature }
  else .error "InvalidExternalSignature"

/-- A v6 transaction is its two lists of actions; a signature starts with the key. -/
def sampleLibraries : Libraries where
  Pczt := List SampleAction × List SampleAction
  TransactionData := Unit
  TxDigests := Unit
  Action := SampleAction
  BundleData := Unit
  Scalar := Bytes32
  Signature := Bytes64
  intoEffects _ := .ok ()
  digest _ := ()
  version _ := .v6
  hasOrchardBundle _ := true
  v5SignatureHash _ _ := List.replicate 32 5
  v6SignatureHash _ _ := List.replicate 32 6
  parse
    | .orchard, pczt => .ok (pczt.1, ())
    | .ironwood, pczt => .ok (pczt.2, ())
  serializeFrom
    | .orchard, pczt, bundle => (bundle.1, pczt.2)
    | .ironwood, pczt, bundle => (pczt.1, bundle.1)
  spendAuthSig := SampleAction.spendAuthSig
  alpha := SampleAction.alpha
  toRepr := id
  signatureFrom := id
  applySignature := sampleApply
  serialize pczt := .ok ((pczt.1 ++ pczt.2).map SampleAction.key)

theorem sampleLibraries_lawful : sampleLibraries.Lawful sampleVerifies where
  parse_serializeFrom := by
    rintro (_ | _) pczt actions actions' data - - <;> exact ⟨(), rfl⟩
  parse_other := by
    rintro (_ | _) (_ | _) pczt bundle hne
    · exact absurd rfl hne
    · rfl
    · rfl
    · exact absurd rfl hne
  exists_apply_iff := by
    intro action sighash signature
    change (∃ action', sampleApply action sighash signature = .ok action') ↔
      sampleVerifies action sighash signature
    unfold sampleApply sampleVerifies
    split_ifs with hkey
    · exact iff_of_true ⟨_, rfl⟩ hkey
    · exact iff_of_false (fun ⟨_, h⟩ => nomatch h) hkey
  spendAuthSig_apply := by
    intro action sighash signature action' h
    change sampleApply action sighash signature = .ok action' at h
    unfold sampleApply at h
    split_ifs at h
    rw [← Except.ok.inj h]
    rfl

/-- A dummy that is signed and two spends that await a signature, one in each pool. -/
def samplePczt : sampleLibraries.Pczt :=
  ([⟨some (.replicate 64 9), some (.replicate 32 9), 9⟩, ⟨none, some (.replicate 32 1), 1⟩],
    [⟨none, some (.replicate 32 2), 2⟩, ⟨none, none, 3⟩])

def sampleSpends : List PoolRandomizer :=
  [⟨.orchard, 1, .replicate 32 1⟩, ⟨.ironwood, 0, .replicate 32 2⟩]

def sampleEntered : List Bytes64 := [.replicate 64 1, .replicate 64 2]

theorem typed_hexEncode (signature : Bytes64) :
    typed (some (hexEncode signature.toList)) = some signature := by
  rw [typed, Option.bind_some, Signing.trim_hexEncode, Client.hexDecode_hexEncode,
    Option.bind_some, toArray_toList]

theorem samplePczt_supported : sampleLibraries.Supported samplePczt () (.replicate 32 6) :=
  ⟨rfl, .inl ⟨rfl, rfl⟩⟩

theorem extract_samplePczt :
    Outcome.foldM (extract samplePczt) [] (poolsFor .v6) = .ok sampleSpends := by
  rw [foldM_extract_eq_ok_iff]
  refine ⟨?_, rfl⟩
  rintro (_ | _) - <;> exact ⟨_, rfl⟩

def sampleAnswers : List (Option String) :=
  sampleEntered.map fun signature => some (hexEncode signature.toList)

theorem typed_sampleAnswers : sampleAnswers.map typed = sampleEntered.map some := by
  simp only [sampleAnswers, List.map_map, Function.comp_def, typed_hexEncode]

def sampleSigned : sampleLibraries.Pczt :=
  ([⟨some (.replicate 64 9), some (.replicate 32 9), 9⟩,
    ⟨some (.replicate 64 1), some (.replicate 32 1), 1⟩],
    [⟨some (.replicate 64 2), some (.replicate 32 2), 2⟩, ⟨none, none, 3⟩])

theorem length_sampleEntered : sampleEntered.length = sampleSpends.length := rfl

theorem inject_samplePczt : Outcome.foldM
    (inject (.replicate 32 6) (List.zipWith assign sampleSpends sampleEntered)) samplePczt
      (poolsFor .v6) = .ok sampleSigned := by
  rfl

theorem serialize_sampleSigned : sampleLibraries.serialize sampleSigned = .ok [9, 1, 2, 3] := rfl

/-- Both spends of the sample are signed when their signatures are entered. -/
theorem signPczt_signs_each_spend_sample : ∃ spends entered signed,
    spends.Pairwise PoolRandomizer.Before ∧
      (∀ r, r ∈ spends ↔ r.pool ∈ poolsFor .v6 ∧ Awaits samplePczt r) ∧
      entered.length = spends.length ∧
      SignedFor sampleVerifies (.replicate 32 6) spends entered samplePczt signed := by
  have hrun := signPczt_of_accepted samplePczt_supported extract_samplePczt typed_sampleAnswers
    length_sampleEntered inject_samplePczt serialize_sampleSigned
  obtain ⟨spends, answers, hbefore, -, -, hspends, -, hok⟩ :=
    signPczt_signs_each_spend sampleLibraries_lawful samplePczt_supported hrun
  obtain ⟨hparse, entered, signed, -, hlength, hsigned, -⟩ := hok _ rfl
  exact ⟨spends, entered, signed, hbefore, (hspends hparse).1, hlength, hsigned⟩

end FrostTools.ZcashSign
