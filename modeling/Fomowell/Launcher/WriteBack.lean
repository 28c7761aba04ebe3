import Fomowell.Launcher.Writes

/-!
# What is written into the projects

The writers of `FOMO_PROJECT_MAP`, key by key. `update_progress` writes back a whole map of
measurements, each key once, whatever the order in which it visits them (`finishProgress_get`);
`set_buy_or_sell` writes its copy (`setBuyOrSellSupply_writes`), which was a stored project when it
was made (`ProjectStep.copy`).

`updateWells` is the part that both share. It never divides by zero (`updateWells_isSome`), and it
stamps a project with the time exactly where `FomoProject.Stamps` says.
-/

namespace Fomowell.Launcher

open Std Canister Table Token Checked

/-! ## The wells progress -/

/-- The wells progress of a project reaches ten thousand, or has reached it without a time. -/
def FomoProject.Stamps (v : FomoProject) (marketCap maxMarketCap : Nat) : Prop :=
  maxMarketCap ≠ 0 ∧
    (v.godOfWellsProgress < 10000 ∧ 10000 ≤ marketCap * 10000 / maxMarketCap ∨
      v.godOfWellsProgress = 10000 ∧ v.godOfWellsTime = none)

instance (v : FomoProject) (marketCap maxMarketCap : Nat) :
    Decidable (v.Stamps marketCap maxMarketCap) :=
  inferInstanceAs (Decidable (_ ∧ _))

/-- The market cap is divided by the largest one only where that is not zero. -/
theorem updateWells_isSome (v : FomoProject) (time marketCap maxMarketCap : Nat) :
    (v.updateWells time marketCap maxMarketCap).isSome := by
  unfold FomoProject.updateWells
  split
  · rfl
  next hmax =>
    split
    · rw [div_of_pos (Nat.pos_of_ne_zero hmax)]
      dsimp only [Option.bind_eq_bind, Option.bind_some]
      split <;> rfl
    · split
      · rfl
      · split <;> rfl

/-- The time of a project after `updateWells`. -/
theorem updateWells_time {v v' : FomoProject} {time marketCap maxMarketCap : Nat}
    (h : v.updateWells time marketCap maxMarketCap = some v') :
    v'.godOfWellsTime =
      if v.Stamps marketCap maxMarketCap then some time else v.godOfWellsTime := by
  unfold FomoProject.updateWells at h
  split at h
  next hmax =>
    cases h
    have keeps : ¬ v.Stamps marketCap maxMarketCap := fun stamps => stamps.1 hmax
    rw [if_neg keeps]
  next hmax =>
    split at h
    next hlt =>
      obtain ⟨progress, hprogress, h⟩ := Option.bind_eq_some_iff.mp h
      obtain ⟨_, rfl⟩ := div_eq_some.mp hprogress
      split at h
      next hreaches =>
        cases h
        have stamps : v.Stamps marketCap maxMarketCap := ⟨hmax, .inl ⟨hlt, hreaches⟩⟩
        rw [if_pos stamps]
      next hreaches =>
        cases h
        have keeps : ¬ v.Stamps marketCap maxMarketCap := by
          rintro ⟨_, ⟨_, hge⟩ | ⟨heq, _⟩⟩
          · exact hreaches hge
          · omega
        rw [if_neg keeps]
    next hlt =>
      split at h
      next hgt =>
        cases h
        have keeps : ¬ v.Stamps marketCap maxMarketCap := by
          rintro ⟨_, ⟨hlt', _⟩ | ⟨heq, _⟩⟩ <;> omega
        rw [if_neg keeps]
      next hgt =>
        split at h
        next hstamp =>
          cases h
          have stamps : v.Stamps marketCap maxMarketCap :=
            ⟨hmax, .inr ⟨hstamp.1, Option.isNone_iff_eq_none.mp hstamp.2⟩⟩
          rw [if_pos stamps]
        next hstamp =>
          cases h
          have keeps : ¬ v.Stamps marketCap maxMarketCap := by
            rintro ⟨_, ⟨hlt', _⟩ | ⟨heq, hnone⟩⟩
            · exact hlt hlt'
            · exact hstamp ⟨heq, Option.isNone_iff_eq_none.mpr hnone⟩
          rw [if_neg keeps]

/-! ## Writing back a map -/

/-- What `update_progress` makes of the project under a key, for the measurements of that key. -/
def Rewritten (time maxMarketCap : Nat) (measurement : Nat × Nat) :
    Option FomoProject → Option FomoProject → Prop
  | none, new => new = none
  | some pj, new => ∃ v,
    { pj with poolProgress := measurement.1, marketCap := measurement.2 }.updateWells time
        measurement.2 maxMarketCap = some v ∧
      (new = some v ∨ new = some { v with poolProgressDoneTime := some time })

section

variable {env : Env} {time maxMarketCap : Nat}

/-- A project that is written back was there, measured, and has at most its completion stamped. -/
theorem Rewritten.eq_some {measurement : Nat × Nat} {old new : Option FomoProject}
    (h : Rewritten time maxMarketCap measurement old new) {p : FomoProject} (hp : new = some p) :
    ∃ pj v, old = some pj ∧
      { pj with poolProgress := measurement.1, marketCap := measurement.2 }.updateWells time
        measurement.2 maxMarketCap = some v ∧
      (p = v ∨ p = { v with poolProgressDoneTime := some time }) := by
  cases old with
  | none =>
    replace h : new = none := h
    rw [h] at hp
    cases hp
  | some pj =>
    obtain ⟨v, hv, hnew⟩ := h
    rw [hp, Option.some.injEq, Option.some.injEq] at hnew
    exact ⟨pj, v, rfl, hv, hnew⟩

/-- The project under a key stays, and is stamped where its measured market cap says so. -/
theorem Rewritten.stamped {measurement : Nat × Nat} {pj : FomoProject} {new : Option FomoProject}
    (h : Rewritten time maxMarketCap measurement (some pj) new) :
    ∃ v, new = some v ∧ v.godOfWellsTime =
      if pj.Stamps measurement.2 maxMarketCap then some time else pj.godOfWellsTime := by
  obtain ⟨v, hv, hnew⟩ := h
  have htime := updateWells_time hv
  obtain rfl | rfl := hnew
  · exact ⟨v, rfl, htime⟩
  · exact ⟨_, rfl, htime⟩

theorem writeBackOne_get {acc acc' : State × List Nat} {entry : Nat × (Nat × Nat)}
    (h : writeBackOne env time maxMarketCap acc entry = some acc') :
    Rewritten time maxMarketCap entry.2 acc.1.fomoProjectMap[entry.1]?
        acc'.1.fomoProjectMap[entry.1]? ∧
      ∀ k, k ≠ entry.1 → acc'.1.fomoProjectMap[k]? = acc.1.fomoProjectMap[k]? := by
  obtain ⟨hnone, rfl⟩ | ⟨pj, v, p, hpj, hv, hwrite, marks⟩ := writeBackOne_stores h
  · rw [hnone]
    exact ⟨rfl, fun _ _ => rfl⟩
  · have projects := (insertProject_stores hwrite).projects
    rw [hpj, projects, ExtTreeMap.getElem?_insert_self]
    refine ⟨⟨v, hv, ?_⟩, fun k hk => get_insert_of_ne _ _ hk⟩
    obtain ⟨_, rfl, _⟩ | ⟨rfl, _⟩ := marks
    · exact .inr rfl
    · exact .inl rfl

/-- A key that is not on the list is not written. -/
theorem writeBack_get_of_not_mem {l : List (Nat × (Nat × Nat))} {acc acc' : State × List Nat}
    (h : l.foldlM (writeBackOne env time maxMarketCap) acc = some acc') {k : Nat}
    (hk : k ∉ l.map Prod.fst) : acc'.1.fomoProjectMap[k]? = acc.1.fomoProjectMap[k]? := by
  induction l generalizing acc with
  | nil =>
    cases h
    rfl
  | cons entry l ih =>
    rw [List.foldlM_cons] at h
    obtain ⟨acc₁, hone, h⟩ := Option.bind_eq_some_iff.mp h
    rw [List.map_cons, List.mem_cons, not_or] at hk
    rw [ih h hk.2, (writeBackOne_get hone).2 k hk.1]

/-- A key on the list is written once. -/
theorem writeBack_get_of_mem {l : List (Nat × (Nat × Nat))} {acc acc' : State × List Nat}
    (h : l.foldlM (writeBackOne env time maxMarketCap) acc = some acc')
    (nodup : (l.map Prod.fst).Nodup) {k : Nat} {measurement : Nat × Nat}
    (hk : (k, measurement) ∈ l) :
    Rewritten time maxMarketCap measurement acc.1.fomoProjectMap[k]?
      acc'.1.fomoProjectMap[k]? := by
  induction l generalizing acc with
  | nil => cases hk
  | cons entry l ih =>
    rw [List.foldlM_cons] at h
    obtain ⟨acc₁, hone, hrest⟩ := Option.bind_eq_some_iff.mp h
    rw [List.map_cons, List.nodup_cons] at nodup
    obtain e | hmem := List.mem_cons.mp hk
    · subst e
      rw [writeBack_get_of_not_mem hrest nodup.1]
      exact (writeBackOne_get hone).1
    · have hne : k ≠ entry.1 := by
        rintro rfl
        exact nodup.1 (List.mem_map.mpr ⟨_, hmem, rfl⟩)
      rw [← (writeBackOne_get hone).2 k hne]
      exact ih hrest nodup.2 hmem

/-- A hash map is visited entry by entry. -/
theorem HashOrder.mem_entries {V : Type} (order : HashOrder) (map : ExtTreeMap Nat V compare)
    {k : Nat} {v : V} : (k, v) ∈ order.entries map ↔ map[k]? = some v := by
  unfold HashOrder.entries
  simp only [List.mem_filterMap, Option.map_eq_some_iff, Prod.mk.injEq]
  constructor
  · rintro ⟨a, _, w, hw, rfl, rfl⟩
    exact hw
  · intro hv
    refine ⟨k, (order.perm _).mem_iff.mpr ?_, v, hv, rfl, rfl⟩
    exact List.mem_map.mpr ⟨(k, v), ExtTreeMap.mem_toList_iff_getElem?_eq_some.mpr hv, rfl⟩

/-- No key is visited twice. -/
theorem HashOrder.nodup_entries {V : Type} (order : HashOrder) (map : ExtTreeMap Nat V compare) :
    ((order.entries map).map Prod.fst).Nodup := by
  have keys : (map.toList.map Prod.fst).Nodup := by
    refine List.pairwise_map.mpr (ExtTreeMap.distinct_keys_toList.imp ?_)
    intro a b hne e
    exact hne (by rw [e]; exact ReflCmp.compare_self)
  unfold HashOrder.entries
  rw [List.map_filterMap]
  refine List.Nodup.filterMap ?_ ((order.perm _).nodup_iff.mpr keys)
  intro a a' b hb hb'
  obtain ⟨_, hv, rfl⟩ := Option.map_eq_some_iff.mp hb
  obtain ⟨_, hv', e⟩ := Option.map_eq_some_iff.mp hb'
  obtain ⟨_, _, rfl⟩ := Option.map_eq_some_iff.mp hv
  obtain ⟨_, _, rfl⟩ := Option.map_eq_some_iff.mp hv'
  exact e.symm

variable {order : HashOrder} {addrConfig : AddrConfig} {map : ExtTreeMap Nat (Nat × Nat) compare}
  {maxIdx : Nat} {st st' : State} {next : Next Frame Answer}

/-- **The end of `update_progress`, key by key.** -/
theorem finishProgress_get
    (h : finishProgress env order time addrConfig map maxMarketCap maxIdx st = some (st', next))
    (k : Nat) :
    (map[k]? = none → st'.fomoProjectMap[k]? = st.fomoProjectMap[k]?) ∧
      ∀ measurement, map[k]? = some measurement →
        Rewritten time maxMarketCap measurement st.fomoProjectMap[k]? st'.fomoProjectMap[k]? := by
  obtain ⟨acc, hfold, h⟩ := Option.bind_eq_some_iff.mp h
  rw [(handOffNext_eq h).1]
  constructor
  · intro hnone
    refine writeBack_get_of_not_mem hfold ?_
    intro hmem
    obtain ⟨⟨k', measurement⟩, hentry, rfl⟩ := List.mem_map.mp hmem
    rw [(order.mem_entries map).mp hentry] at hnone
    cases hnone
  · intro measurement hsome
    exact writeBack_get_of_mem hfold (order.nodup_entries map) ((order.mem_entries map).mpr hsome)

/-! ## A round of `update_progress` -/

/-- The measurements after a reply of the oracle. -/
def Progress.mapAfter (p : Progress) (mcRes : CallResult (PrincipalMap Nat)) :
    ExtTreeMap Nat (Nat × Nat) compare :=
  p.map.insert p.item.fomoIdx
    (capProgress (poolProgressOf (reportedCap p.item.tokenPid mcRes)),
      reportedCap p.item.tokenPid mcRes)

/-- Whether a reply of the oracle makes the project the one with the largest market cap. -/
def Progress.isGreater (p : Progress) (mcRes : CallResult (PrincipalMap Nat)) : Bool :=
  Launcher.isGreater (reportedCap p.item.tokenPid mcRes) p.maxMarketCap p.item.poolProgressDoneTime
    p.item.godOfWellsTime

/-- The largest market cap after a reply of the oracle. -/
def Progress.maxAfter (p : Progress) (mcRes : CallResult (PrincipalMap Nat)) : Nat :=
  if p.isGreater mcRes then reportedCap p.item.tokenPid mcRes else p.maxMarketCap

/-- The project with the largest market cap after a reply of the oracle. -/
def Progress.idxAfter (p : Progress) (mcRes : CallResult (PrincipalMap Nat)) : Nat :=
  if p.isGreater mcRes then p.item.fomoIdx else p.maxMarketCapFomoIdx

theorem updateProgressItem_eq (env : Env) (order : HashOrder) (time : Nat) (p : Progress)
    (mcRes : CallResult (PrincipalMap Nat)) (st : State) :
    updateProgressItem env order time p mcRes st =
      progressNext env order time p.addrConfig p.list (p.mapAfter mcRes) (p.maxAfter mcRes)
        (p.idxAfter mcRes) st := by
  unfold updateProgressItem Progress.maxAfter Progress.idxAfter Progress.isGreater
  dsimp only
  split <;> rfl

/-- The last loop awaits no measurement. -/
theorem finishProgress_measures
    (h : finishProgress env order time addrConfig map maxMarketCap maxIdx st = some (st', next)) :
    next.frame?.bind Frame.measures = none := by
  obtain ⟨acc, _, h⟩ := Option.bind_eq_some_iff.mp h
  obtain ⟨_, rfl | ⟨_, _, rfl, _⟩⟩ := handOffNext_eq h
  · rfl
  · rfl

/-! ## The end of `set_buy_or_sell` -/

/-- The market cap of the god of wells, with zero for none. -/
def State.largestMarketCap (st : State) : Nat :=
  (st.fomoProjectMap[st.context.godOfWellsIdx]?.map (·.marketCap)).getD 0

/-- The market cap that `set_buy_or_sell` computes, where the ledger and the oracle answered. -/
def Quote.marketCap (q : Quote) (supply : CallResult Nat) : Option Nat := do
  let totalBalance ← unwrap supply
  let (_, icpPrice) ← unwrap q.icpPriceRes
  return marketCapOf q.poolInfo icpPrice totalBalance

/-- What `set_buy_or_sell` writes: its copy, with what it measured. -/
theorem setBuyOrSellSupply_writes {q : Quote} {supply : CallResult Nat}
    (h : setBuyOrSellSupply env time q supply st = some (st', next)) :
    ∃ marketCap v, q.marketCap supply = some marketCap ∧
      q.v.updateWells time marketCap st.largestMarketCap = some v ∧
      st'.fomoProjectMap = st.fomoProjectMap.insert q.recordSignal.fomoIdx
        { v with
          poolProgress := capProgress (poolProgressOf marketCap)
          marketCap
          recentlyBumpTime := time } := by
  obtain ⟨totalBalance, hsupply, h⟩ := Option.bind_eq_some_iff.mp h
  obtain ⟨⟨decimals, icpPrice⟩, hprice, h⟩ := Option.bind_eq_some_iff.mp h
  obtain ⟨v, hv, h⟩ := Option.bind_eq_some_iff.mp h
  obtain ⟨written, hwrite, h⟩ := Option.bind_eq_some_iff.mp h
  cases h
  refine ⟨marketCapOf q.poolInfo icpPrice totalBalance, v, ?_, hv,
    (insertProject_stores hwrite).projects⟩
  unfold Quote.marketCap
  rw [hsupply, hprice]
  rfl

/-! ## The other writers -/

/-- Accounts are not projects. -/
theorem AccountWrites.projects_eq (h : AccountWrites env st st') :
    st'.fomoProjectMap = st.fomoProjectMap := by
  induction h with
  | refl => rfl
  | tail _ step ih =>
    rw [← ih]
    cases step <;> rfl

/-- `reply_update` writes the project it read. -/
theorem replyUpdate_writes {fomoIdx : Nat} (h : replyUpdate env time fomoIdx st = some st') :
    ∃ v, st.fomoProjectMap[fomoIdx]? = some v ∧
      st'.fomoProjectMap = st.fomoProjectMap.insert fomoIdx
        { v with replyCount := v.replyCount + 1, recentlyReplyTime := time } := by
  obtain ⟨v, hv, h⟩ := Option.bind_eq_some_iff.mp h
  exact ⟨v, hv, (insertProject_stores h).projects⟩

/-- `create_fomo` writes its new project. -/
theorem createFomoInstalled_writes {c : Created} {res : CallResult Unit}
    (h : createFomoInstalled env time c res st = some (st', next)) :
    st'.fomoProjectMap = st.fomoProjectMap.insert c.idx c.fomoProject := by
  obtain ⟨_, stores, _, _, rewards, _⟩ := createFomoInstalled_cases h
  rw [rewards.writes.projects_eq, stores.projects]

end

/-! ## Copies -/

/-- A copy that a run holds, to write it back under a key, has a property. -/
def Role.Copy (C : Nat → FomoProject → Prop) : Role → Prop
  | .trades k v => C k v
  | .settles k v => C k v
  | _ => True

theorem Follows.copy {r r' : Role} (h : Follows r r') {C : Nat → FomoProject → Prop}
    (copy : r.Copy C) : r'.Copy C := by
  cases h with
  | plain => trivial
  | creates idx => trivial
  | trades k v => exact copy
  | settles k v => exact copy

theorem handOffNext_copy {addrConfig : AddrConfig} {l : List Nat} {st st' : State}
    {next : Next Frame Answer} (h : handOffNext env addrConfig l st = some (st', next))
    (C : Nat → FomoProject → Prop) : (roleOf next.frame?).Copy C := by
  obtain ⟨_, ⟨_, hnext⟩ | ⟨hand, stage, _, _, hnext, _⟩⟩ := handOffNext_cases h
  · rw [hnext]
    trivial
  · rw [hnext]
    trivial

/-- A copy that is held after a step was held before it, or was stored. -/
theorem ProjectStep.copy {env : Env} {st st' : State} {paid : Bool} {r r' : Role}
    (step : ProjectStep env st paid r st' r') {C : Nat → FomoProject → Prop}
    (stored : ∀ (k : Nat) p, st.fomoProjectMap[k]? = some p → C k p) (copy : r.Copy C) :
    r'.Copy C := by
  cases step with
  | quiet same role => exact role.copy copy
  | counted projects count => trivial
  | drew projects count => trivial
  | created c stores => trivial
  | replied stored' stores => trivial
  | read hv => exact stored _ _ hv
  | traded same marker stores => trivial
  | finished ends =>
    obtain ⟨acc, _, ends⟩ := Option.bind_eq_some_iff.mp ends
    exact handOffNext_copy ends C
  | handedOff ends =>
    obtain ⟨_, stage', hnext, _⟩ | ⟨_, ends⟩ := updateProgressHandOff_cases ends
    · rw [hnext]
      trivial
    · exact handOffNext_copy ends C

end Fomowell.Launcher
