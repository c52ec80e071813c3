/-
The counters of the guild bank say what each member has taken since the last
reset, and nobody takes more than the best of his ranks allows, in every run in
which no restart comes between a row that has fallen behind and the reset.
-/
import AtlasWow.Guilds.GuildBank
import AtlasWow.Guilds.GuildRanks

namespace AtlasWow

/-! ## Machine numbers -/

/-- What is left of a limit, where something is: signed arithmetic that wraps says the same. -/
theorem remaining_eq {limit v : Nat} (hlimit : limit < 2 ^ 32) (hv : v < 2 ^ 31)
    (hpos : 0 < int32 (int32 limit - v)) : int32 (int32 limit - v) = limit - v := by
  simp only [int32_eq] at hpos ⊢
  omega

theorem int32_lt {limit v : Nat} (hlimit : limit < 2 ^ 31) : (v : Int) < int32 limit ↔ v < limit := by
  rw [int32_small (by omega) (by omega)]
  omega

namespace Guild

theorem rankPerDay_lt (g : Guild) (rankId : UInt8) (slot : Slot) : g.rankPerDay rankId slot < 2 ^ 32 := by
  unfold rankPerDay
  cases g.getRankInfo rankId with
  | none => exact Nat.two_pow_pos 32
  | some rank =>
    simp only [Option.map_some, Option.getD_some]
    split
    · split
      · exact UInt32.toNat_lt _
      · exact Nat.two_pow_pos 32
    · exact UInt32.toNat_lt _

theorem rankPerDay_congr {g g' : Guild} (hranks : g'.ranks = g.ranks) (htabs : g'.bankTabs = g.bankTabs) (rankId : UInt8)
    (slot : Slot) : g'.rankPerDay rankId slot = g.rankPerDay rankId slot := by
  unfold rankPerDay getRankInfo getRanksSize
  rw [hranks, htabs]

theorem getMember_addWithdraw (g : Guild) (guid : ObjectGuid) (slot : Slot) (amount : Nat) (k : ObjectGuid) :
    (g.addWithdraw guid slot amount).getMember k = (g.getMember k).map fun m => if k = guid then
      { m with bankWithdraw := Function.update m.bankWithdraw slot (int32 (m.bankWithdraw slot + amount)) } else m :=
  UMap.find?_mapValues _ _ _

theorem getMember_loadWithdraw (g : Guild) (rows : ObjectGuid → Option (Slot → Nat)) (k : ObjectGuid) :
    (g.loadWithdraw rows).getMember k = (g.getMember k).map fun m =>
      { m with bankWithdraw := fun slot => int32 ((((rows k).map (· slot)).getD 0 : Nat) : Int) } :=
  UMap.find?_mapValues _ _ _

theorem getMember_resetTimes (g : Guild) (k : ObjectGuid) :
    g.resetTimes.getMember k = (g.getMember k).map fun m => { m with bankWithdraw := fun _ => 0 } :=
  UMap.find?_mapValues _ _ _

end Guild

namespace GuildBank

variable {b b' : GuildBank} {guid : ObjectGuid} {m : Member} {src dest : ItemPlace}

/-- What the counters, the row and the limits have to do with what a member has taken. -/
structure Counted (b : GuildBank) (guid : ObjectGuid) (m : Member) : Prop where
  counters : ∀ slot, m.bankWithdraw slot = b.taken guid slot
  small : ∀ slot, b.taken guid slot < 2 ^ 31
  held : m.rankId ∈ b.held guid
  fresh : b.rows guid = none → b.behind guid = 0 ∧ ∀ slot, b.taken guid slot = 0
  row : ∀ r, b.rows guid = some r → (∀ slot, slot ≠ Slot.money → r slot = b.taken guid slot) ∧
    r Slot.money + b.behind guid = b.taken guid Slot.money
  limit : GR_GUILDMASTER ∉ b.held guid → ∀ slot, ∃ rank ∈ b.held guid, b.taken guid slot ≤ b.guild.rankPerDay rank slot

theorem Counted.getBankWithdrawValue (h : b.Counted guid m) (hmaster : m.rankId ≠ GR_GUILDMASTER) (slot : Slot) :
    m.getBankWithdrawValue slot = b.taken guid slot := by
  rw [Member.getBankWithdrawValue, Member.isRank, if_neg (by simpa using hmaster), h.counters]

def Exact (b : GuildBank) : Prop := ∀ guid m, b.guild.getMember guid = some m → Counted b guid m

/-- What a member may take now: not more than his rank allows with what he has taken, unless he is guild master. -/
def Within (b : GuildBank) (m : Member) (guid : ObjectGuid) (slot : Slot) (amount : Nat) : Prop :=
  m.rankId = GR_GUILDMASTER ∨ amount = 0 ∨ b.taken guid slot + amount ≤ b.guild.rankPerDay m.rankId slot

/-- Something is taken and counted. -/
theorem Exact.takeCounted (h : b.Exact) (hm : b.guild.getMember guid = some m) {slot : Slot} {amount : Nat}
    (hfits : b.taken guid slot + amount < 2 ^ 31) (hwithin : b.Within m guid slot amount) :
    ((b.take guid slot amount).updateBankWithdrawValue guid slot amount).Exact := by
  intro k m' hk
  rw [show ((b.take guid slot amount).updateBankWithdrawValue guid slot amount).guild = b.guild.addWithdraw guid slot amount
    from rfl, Guild.getMember_addWithdraw] at hk
  obtain ⟨m₀, hm₀, rfl⟩ := Option.map_eq_some_iff.1 hk
  have hc := h k m₀ hm₀
  have hrows : ((b.take guid slot amount).updateBankWithdrawValue guid slot amount).rows k =
      if k = guid then some (upsert (b.rows guid) fun s => uint32 (Function.update m.bankWithdraw slot
        (int32 (m.bankWithdraw slot + amount)) s)) else b.rows k := by
    show Function.update b.rows guid _ k = _
    rw [Function.update_apply]
    split
    · rw [show (b.take guid slot amount).guild = b.guild from rfl, Guild.getMember_addWithdraw, hm, Option.map_some,
        Option.map_some, if_pos rfl]
      rfl
    · rfl
  have htaken : ∀ s, ((b.take guid slot amount).updateBankWithdrawValue guid slot amount).taken k s =
      if k = guid ∧ s = slot then b.taken k s + amount else b.taken k s := fun _ => rfl
  have hbehind : ((b.take guid slot amount).updateBankWithdrawValue guid slot amount).behind k =
      if k = guid ∧ slot = Slot.money ∧ (b.rows guid).isSome then b.behind k + amount else b.behind k := by
    show (if slot = Slot.money ∧ (b.rows guid).isSome then Function.update b.behind guid (b.behind guid + amount)
      else b.behind) k = _
    split
    next hrow =>
      rw [Function.update_apply]
      by_cases hk : k = guid
      · rw [if_pos hk, if_pos ⟨hk, hrow⟩, hk]
      · rw [if_neg hk, if_neg fun hc => hk hc.1]
    next hrow => rw [if_neg fun hc => hrow hc.2]
  by_cases hkg : k = guid
  · subst hkg
    rw [hm] at hm₀
    cases hm₀
    simp only [true_and, if_true] at hrows htaken hbehind ⊢
    have hcount : ∀ s, Function.update m.bankWithdraw slot (int32 (m.bankWithdraw slot + amount)) s =
        (if s = slot then b.taken k s + amount else b.taken k s : Nat) := by
      intro s
      rw [Function.update_apply]
      split
      next hs =>
        rw [hs, hc.counters, int32_small (by omega) (by omega)]
        omega
      next => exact hc.counters s
    have hsmall : ∀ s, (if s = slot then b.taken k s + amount else b.taken k s) < 2 ^ 31 := by
      intro s
      split
      next hs => rw [hs]; exact hfits
      next => exact hc.small s
    have hvalues : ∀ s, uint32 (Function.update m.bankWithdraw slot (int32 (m.bankWithdraw slot + amount)) s) =
        if s = slot then b.taken k s + amount else b.taken k s := fun s => by rw [hcount, uint32_small (by have := hsmall s; omega)]
    refine ⟨fun s => ?_, fun s => ?_, hc.held, fun hnone => ?_, fun r hr => ?_, fun hgm s => ?_⟩
    · rw [htaken]
      exact hcount s
    · rw [htaken]
      exact hsmall s
    · rw [hrows] at hnone
      cases hnone
    · rw [hrows, Option.some.injEq] at hr
      subst hr
      rw [hbehind, htaken]
      cases hold : b.rows k with
      | none =>
        obtain ⟨hb, -⟩ := hc.fresh hold
        refine ⟨fun s _ => ?_, ?_⟩
        · rw [htaken]
          exact hvalues s
        · rw [if_neg (by simp), hb]
          exact hvalues Slot.money
      | some old =>
        obtain ⟨htabs, hmoney⟩ := hc.row old hold
        refine ⟨fun s hs => ?_, ?_⟩
        · rw [htaken]
          simp only [upsert, if_neg hs]
          exact hvalues s
        · simp only [upsert, if_true]
          by_cases hslot : slot = Slot.money
          · rw [if_pos ⟨hslot, rfl⟩, if_pos hslot.symm]
            omega
          · rw [if_neg fun hboth => hslot hboth.1, if_neg (Ne.symm hslot)]
            exact hmoney
    · rw [htaken]
      split
      next hs =>
        rcases hwithin with hmaster | hzero | hle
        · exact absurd (hmaster ▸ hc.held) hgm
        · rw [hzero]
          exact hc.limit hgm s
        · exact ⟨m.rankId, hc.held, hs ▸ hle⟩
      next => exact hc.limit hgm s
  · rw [if_neg hkg] at hrows ⊢
    rw [if_neg fun hc => hkg hc.1] at hbehind
    have htaken : ((b.take guid slot amount).updateBankWithdrawValue guid slot amount).taken k = b.taken k :=
      funext fun s => (htaken s).trans (if_neg fun hc => hkg hc.1)
    refine ⟨?_, ?_, hc.held, ?_, ?_, ?_⟩ <;> rw [htaken]
    · exact hc.counters
    · exact hc.small
    · rw [hrows, hbehind]
      exact hc.fresh
    · rw [hrows, hbehind]
      exact hc.row
    · exact hc.limit

/-! ## The withdrawals -/

/-- The tabs items leave. -/
def tabsLeft (src dest : ItemPlace) (swap : Bool) : List Tab :=
  (leaves src dest).toList ++ if swap then (leaves dest src).toList else []

/-- No row has fallen behind when the server restarts, no counter would pass the signed numbers, and nobody takes items as
guild master, or with a limit that is no signed number. -/
def counted : Event → GuildBank → Bool
  | .withdrawMoney guid amount repair purse, b =>
    !b.canWithdrawMoney guid (min amount MAX_MONEY_AMOUNT) repair purse ||
      (b.guild.getMember guid).all fun m => m.bankWithdraw Slot.money + ((min amount MAX_MONEY_AMOUNT).toNat : Int) < 2 ^ 31
  | .moveItem guid src dest swap, b =>
    !b.mayMove guid src dest swap || (tabsLeft src dest swap).all fun tab => (b.guild.getMember guid).all fun m =>
      m.rankId ≠ GR_GUILDMASTER && b.guild.rankPerDay m.rankId tab.castSucc < 2 ^ 31
  | .restart, b => b.guild.members.entries.all fun e => b.behind e.1 = 0
  | _, _ => true

theorem Exact.withdrawMoney (h : b.Exact) {amount : UInt32} {repair purse : Bool}
    (hok : counted (.withdrawMoney guid amount repair purse) b = true) :
    (b.handleMemberWithdrawMoney guid amount repair purse).Exact := by
  have hok : (!b.canWithdrawMoney guid (min amount MAX_MONEY_AMOUNT) repair purse || (b.guild.getMember guid).all fun m =>
    m.bankWithdraw Slot.money + ((min amount MAX_MONEY_AMOUNT).toNat : Int) < 2 ^ 31) = true := hok
  unfold handleMemberWithdrawMoney
  generalize min amount MAX_MONEY_AMOUNT = amount at hok ⊢
  simp only
  split
  next hcan =>
    rw [hcan, Bool.not_true, Bool.false_or] at hok
    simp only [canWithdrawMoney, Bool.and_eq_true] at hcan
    obtain ⟨m, hm, hleft⟩ := (Option.any_eq_true _ _).1 hcan.1.2
    have hleft := of_decide_eq_true hleft
    have hfits := of_decide_eq_true ((Option.all_eq_true _ _).1 hok m hm)
    have hc := h guid m hm
    rw [hc.counters] at hfits
    have hwithin : b.Within m guid Slot.money amount.toNat := by
      by_cases hmaster : m.rankId = GR_GUILDMASTER
      · exact .inl hmaster
      by_cases hzero : amount.toNat = 0
      · exact .inr (.inl hzero)
      refine .inr (.inr ?_)
      unfold Guild.getMemberRemainingMoney at hleft
      rw [if_neg hmaster, hc.getBankWithdrawValue hmaster] at hleft
      split at hleft
      · have hlt := b.guild.rankPerDay_lt m.rankId Slot.money
        have hsmall := hc.small Slot.money
        generalize b.taken guid Slot.money = v at hleft hsmall ⊢
        have hpos : 0 < int32 (b.guild.getRankBankMoneyPerDay m.rankId - (v : Int)) := by
          by_contra hneg
          rw [Int.max_eq_left (by omega)] at hleft
          exact hzero (Nat.le_zero.1 hleft)
        rw [Int.max_eq_right (by omega)] at hleft
        rw [Guild.getRankBankMoneyPerDay] at hleft hpos
        have heq := remaining_eq hlt hsmall hpos
        rw [heq] at hleft hpos
        have hleft : amount.toNat ≤ (((b.guild.rankPerDay m.rankId Slot.money : Int) - v) % 4294967296).toNat := hleft
        omega
      · exact absurd (Nat.le_zero.1 hleft) hzero
    intro k m' hk
    have hcount := (h.takeCounted hm (by omega) hwithin) k m' hk
    exact ⟨hcount.counters, hcount.small, hcount.held, hcount.fresh, hcount.row, hcount.limit⟩
  next => exact h

/-- An item that leaves a tab is counted. -/
theorem Exact.removeItem (h : b.Exact) (hrights : b.hasWithdrawRights guid src dest = true)
    (hok : ∀ tab ∈ leaves src dest, ∀ m, b.guild.getMember guid = some m →
      m.rankId ≠ GR_GUILDMASTER ∧ b.guild.rankPerDay m.rankId tab.castSucc < 2 ^ 31) :
    (b.removeItem guid src dest).Exact := by
  unfold GuildBank.removeItem
  unfold hasWithdrawRights at hrights
  cases hleaves : leaves src dest with
  | none => exact h
  | some tab =>
    have hleft := of_decide_eq_true ((Option.all_eq_true _ _).1 hrights tab hleaves)
    show ((b.take guid tab.castSucc 1).updateMemberWithdrawSlots guid tab).Exact
    cases hm : b.guild.getMember guid with
    | none =>
      rw [hm] at hleft
      exact absurd rfl hleft
    | some m =>
      obtain ⟨hmaster, hlimit⟩ := hok tab hleaves m hm
      have hc := h guid m hm
      have hvalue := hc.getBankWithdrawValue hmaster tab.castSucc
      have hroom : b.taken guid tab.castSucc < b.guild.rankPerDay m.rankId tab.castSucc := by
        rw [hm, Guild.getMemberRemainingSlots] at hleft
        simp only [if_neg hmaster, hvalue] at hleft
        split at hleft
        · have hpos : 0 < int32 (b.guild.getRankBankTabSlotsPerDay m.rankId tab - (b.taken guid tab.castSucc : Int)) := by
            omega
          have heq := remaining_eq (b.guild.rankPerDay_lt m.rankId tab.castSucc) (hc.small tab.castSucc) hpos
          rw [Guild.getRankBankTabSlotsPerDay, heq] at hpos
          omega
        · exact absurd rfl hleft
      have hcounts : m.rankId ≠ GR_GUILDMASTER ∧
          m.getBankWithdrawValue tab.castSucc < b.guild.getRankBankTabSlotsPerDay m.rankId tab :=
        ⟨hmaster, hvalue ▸ (int32_lt hlimit).2 hroom⟩
      unfold updateMemberWithdrawSlots
      rw [show (b.take guid tab.castSucc 1).guild = b.guild from rfl, hm]
      simp only [if_pos hcounts]
      exact h.takeCounted hm (by omega) (.inr (.inr hroom))

/-- Taking an item leaves the members, their ranks and the counters of other tabs alone. -/
theorem removeItem_frame (b : GuildBank) (guid : ObjectGuid) (src dest : ItemPlace) :
    (b.removeItem guid src dest).guild.ranks = b.guild.ranks ∧
    (b.removeItem guid src dest).guild.bankTabs = b.guild.bankTabs ∧
    ((b.removeItem guid src dest).guild = b.guild ∨ ∃ tab, leaves src dest = some tab ∧
      (b.removeItem guid src dest).guild = b.guild.addWithdraw guid tab.castSucc 1) := by
  unfold GuildBank.removeItem
  cases leaves src dest with
  | none => exact ⟨rfl, rfl, .inl rfl⟩
  | some tab =>
    show ((b.take guid tab.castSucc 1).updateMemberWithdrawSlots guid tab).guild.ranks = _ ∧ _
    simp only [Option.elim_some]
    unfold updateMemberWithdrawSlots
    split
    · exact ⟨rfl, rfl, .inl rfl⟩
    split
    · exact ⟨rfl, rfl, .inr ⟨tab, rfl, rfl⟩⟩
    · exact ⟨rfl, rfl, .inl rfl⟩

theorem Exact.moveItem (h : b.Exact) {swap : Bool}
    (hok : counted (.moveItem guid src dest swap) b = true) : (b.moveItems guid src dest swap).Exact := by
  have hok : (!b.mayMove guid src dest swap || (tabsLeft src dest swap).all fun tab => (b.guild.getMember guid).all fun m =>
    m.rankId ≠ GR_GUILDMASTER && b.guild.rankPerDay m.rankId tab.castSucc < 2 ^ 31) = true := hok
  unfold moveItems
  split
  next hmay =>
    extract_lets b₁
    rw [hmay, Bool.not_true, Bool.false_or, List.all_eq_true] at hok
    have hok : ∀ tab ∈ tabsLeft src dest swap, ∀ m, b.guild.getMember guid = some m →
        m.rankId ≠ GR_GUILDMASTER ∧ b.guild.rankPerDay m.rankId tab.castSucc < 2 ^ 31 := by
      intro tab htab m hm
      have := (Option.all_eq_true _ _).1 (hok tab htab) m hm
      rwa [Bool.and_eq_true, decide_eq_true_eq, decide_eq_true_eq] at this
    simp only [mayMove, Bool.and_eq_true, Bool.or_eq_true, Bool.not_eq_true'] at hmay
    obtain ⟨⟨-, hrights⟩, hswap⟩ := hmay
    have h₁ : b₁.Exact := h.removeItem hrights fun tab htab m hm =>
      hok tab (List.mem_append_left _ (Option.mem_toList.2 htab)) m hm
    split
    next hs =>
      subst hs
      have hback := (hswap.resolve_left (by simp)).2
      obtain ⟨hranks, htabs, hguild⟩ := removeItem_frame b guid src dest
      -- the tab the other item leaves is another one
      have hsame : ∀ tab ∈ leaves dest src, ∀ m, b₁.guild.getMember guid = some m → ∃ m₀,
          b.guild.getMember guid = some m₀ ∧ m₀.rankId = m.rankId ∧
          m₀.bankWithdraw tab.castSucc = m.bankWithdraw tab.castSucc := by
        intro tab htab m hm
        rcases hguild with hg | ⟨tab', htab', hg⟩
        · rw [show b₁.guild = b.guild from hg] at hm
          exact ⟨m, hm, rfl, rfl⟩
        rw [show b₁.guild = _ from hg, Guild.getMember_addWithdraw] at hm
        obtain ⟨m₀, hm₀, rfl⟩ := Option.map_eq_some_iff.1 hm
        refine ⟨m₀, hm₀, by rw [if_pos rfl], ?_⟩
        have hne : tab.castSucc ≠ tab'.castSucc := by
          intro he
          have he := Fin.castSucc_inj.1 he
          unfold leaves at htab htab'
          split at htab
          · cases htab
          next hne =>
          rw [if_neg (Ne.symm hne)] at htab'
          rw [Option.mem_def] at htab
          exact hne (by rw [htab, htab', he])
        rw [if_pos rfl]
        exact (Function.update_of_ne hne _ _).symm
      have hperDay : ∀ rank slot, b₁.guild.rankPerDay rank slot = b.guild.rankPerDay rank slot :=
        Guild.rankPerDay_congr hranks htabs
      refine h₁.removeItem ?_ fun tab htab m hm => ?_
      · unfold hasWithdrawRights at hback ⊢
        refine (Option.all_eq_true _ _).2 fun tab htab => ?_
        have hleft := (Option.all_eq_true _ _).1 hback tab htab
        cases hm : b₁.guild.getMember guid with
        | none =>
          have hnone : b.guild.getMember guid = none := by
            rcases hguild with hg | ⟨tab', -, hg⟩
            · rw [show b₁.guild = b.guild from hg] at hm
              exact hm
            · rw [show b₁.guild = _ from hg, Guild.getMember_addWithdraw, Option.map_eq_none_iff] at hm
              exact hm
          rw [hnone] at hleft
          exact hleft
        | some m =>
          obtain ⟨m₀, hm₀, hrank, hvalue⟩ := hsame tab htab m hm
          rw [hm₀] at hleft
          have hrights : b₁.guild.getRankBankTabRights m.rankId tab = b.guild.getRankBankTabRights m.rankId tab := by
            unfold Guild.getRankBankTabRights Guild.getRankInfo Guild.getRanksSize
            rw [show b₁.guild.ranks = _ from hranks]
          simp only [Guild.getMemberRemainingSlots, Guild.getRankBankTabSlotsPerDay, Member.getBankWithdrawValue,
            Member.isRank, hrank, hvalue] at hleft
          simp only [Guild.getMemberRemainingSlots, Guild.getRankBankTabSlotsPerDay, Member.getBankWithdrawValue,
            Member.isRank, hrights, hperDay]
          exact hleft
      · obtain ⟨m₀, hm₀, hrank, -⟩ := hsame tab htab m hm
        rw [hperDay, ← hrank]
        exact hok tab (List.mem_append_right _ (by rw [if_pos rfl]; exact Option.mem_toList.2 htab)) m₀ hm₀
    next => exact h₁
  next => exact h

/-! ## Runs -/

def UpToDate (event : Event) (b : GuildBank) : Prop := counted event b = true

instance (event : Event) (b : GuildBank) : Decidable (UpToDate event b) := inferInstanceAs (Decidable (_ = true))

theorem Exact.changeRank (h : b.Exact) (guid : ObjectGuid) (rankId : UInt8) :
    Exact { b with
      guild := b.guild.changeRank guid rankId
      held := Function.update b.held guid (rankId :: b.held guid) } := by
  intro k m hk
  have hk : (b.guild.changeRank guid rankId).getMember k = some m := hk
  rw [Guild.getMember_changeRank] at hk
  obtain ⟨m₀, hm₀, rfl⟩ := Option.map_eq_some_iff.1 hk
  have hc := h k m₀ hm₀
  have hsub : ∀ rank ∈ b.held k, rank ∈ Function.update b.held guid (rankId :: b.held guid) k := by
    intro rank hrank
    rw [Function.update_apply]
    split
    next hkg => exact List.mem_cons_of_mem _ (hkg ▸ hrank)
    next => exact hrank
  refine ⟨fun slot => ?_, hc.small, ?_, hc.fresh, hc.row, fun hgm slot => ?_⟩
  · rw [← hc.counters]
    split <;> rfl
  · show _ ∈ Function.update b.held guid (rankId :: b.held guid) k
    by_cases hkg : k = guid
    · rw [if_pos hkg, hkg, Function.update_self]
      exact List.mem_cons_self
    · rw [if_neg hkg]
      exact hsub _ hc.held
  · obtain ⟨rank, hrank, hle⟩ := hc.limit (fun hmem => hgm (hsub _ hmem)) slot
    exact ⟨rank, hsub _ hrank, hle⟩

/-- The rows say what the counters say, if none has fallen behind. -/
theorem Exact.restart (h : b.Exact) (hok : counted .restart b = true) :
    Exact { b with guild := b.guild.loadWithdraw b.rows } := by
  intro k m hk
  have hk : (b.guild.loadWithdraw b.rows).getMember k = some m := hk
  rw [Guild.getMember_loadWithdraw] at hk
  obtain ⟨m₀, hm₀, rfl⟩ := Option.map_eq_some_iff.1 hk
  have hc := h k m₀ hm₀
  have hbehind : b.behind k = 0 := of_decide_eq_true (List.all_eq_true.1 hok (k, m₀) (UMap.mem_entries.2 hm₀))
  have hlimit : ∀ rank slot, (b.guild.loadWithdraw b.rows).rankPerDay rank slot = b.guild.rankPerDay rank slot :=
    Guild.rankPerDay_congr rfl rfl
  suffices hcounters : ∀ slot, int32 ((((b.rows k).map (· slot)).getD 0 : Nat) : Int) = b.taken k slot by
    refine ⟨hcounters, hc.small, hc.held, hc.fresh, hc.row, fun hgm slot => ?_⟩
    obtain ⟨rank, hrank, hle⟩ := hc.limit hgm slot
    exact ⟨rank, hrank, hlimit rank slot ▸ hle⟩
  intro slot
  have hsmall := hc.small slot
  have hrow : ((b.rows k).map (· slot)).getD 0 = b.taken k slot := by
    cases hold : b.rows k with
    | none => exact ((hc.fresh hold).2 slot).symm
    | some r =>
      obtain ⟨htabs, hmoney⟩ := hc.row r hold
      by_cases hslot : slot = Slot.money
      · subst hslot
        show r Slot.money = _
        omega
      · exact htabs slot hslot
  rw [hrow, int32_small (by omega) (by omega)]

/-- Counters at zero, and nothing taken yet. -/
theorem exact_start (g : Guild) : (start g).Exact := by
  intro guid m hm
  have hm : g.resetTimes.getMember guid = some m := hm
  rw [Guild.getMember_resetTimes] at hm
  obtain ⟨m₀, hm₀, rfl⟩ := Option.map_eq_some_iff.1 hm
  have hheld : (start g).held guid = [m₀.rankId] := by
    show ((g.getMember guid).map (·.rankId)).toList = _
    rw [hm₀]
    rfl
  refine ⟨fun _ => rfl, fun _ => Nat.two_pow_pos 31, ?_, fun _ => ⟨rfl, fun _ => rfl⟩, fun r hr => (by cases hr),
    fun _ slot => ⟨m₀.rankId, ?_, Nat.zero_le _⟩⟩
  · rw [hheld]
    exact List.mem_cons_self
  · rw [hheld]
    exact List.mem_cons_self

theorem Exact.step (h : b.Exact) {event : Event} (hok : UpToDate event b) (hs : step event b = some b') : b'.Exact := by
  cases event with
  | withdrawMoney guid amount repair purse =>
    cases hs
    exact h.withdrawMoney hok
  | moveItem guid src dest swap =>
    cases hs
    exact h.moveItem hok
  | changeRank guid rankId =>
    cases hs
    exact h.changeRank guid rankId
  | restart =>
    cases hs
    exact h.restart hok
  | reset =>
    cases hs
    exact exact_start b.guild

/-- Every counter is what its member has taken since the last reset, and whoever was not guild master since has taken no
more than one of the ranks he held allows, in every run that is up to date whenever the server restarts. -/
theorem reaches_enforced (g : Guild) {b : GuildBank} (hr : Reaches step UpToDate (start g) b) {guid : ObjectGuid} {m : Member}
    (hm : b.guild.getMember guid = some m) :
    (∀ slot, m.bankWithdraw slot = b.taken guid slot ∧ b.taken guid slot < 2 ^ 31) ∧
    (GR_GUILDMASTER ∉ b.held guid → ∀ slot, ∃ rank ∈ b.held guid, b.taken guid slot ≤ b.guild.rankPerDay rank slot) := by
  have hexact : b.Exact := hr.invariant Exact (fun _ _ _ ha hok hs => ha.step hok hs) (exact_start g)
  have hc := hexact guid m hm
  exact ⟨fun slot => ⟨hc.counters slot, hc.small slot⟩, hc.limit⟩

def firstTab : Tab := ⟨0, by decide⟩

/-- Guild master 1 and officer 2, who may take 100 a day and two items from the first tab. -/
def richGuild : Guild where
  leaderGuid := 1
  ranks := [.create GR_GUILDMASTER GR_RIGHT_ALL,
    ⟨GR_OFFICER, GR_RIGHT_ALL, 100, fun _ => ⟨GUILD_BANK_RIGHT_FULL, 2⟩⟩]
  members := (UMap.empty.insert (.front _ _) 1 ⟨GR_GUILDMASTER, fun _ => 0⟩).insert (.front _ _) 2 ⟨GR_OFFICER, fun _ => 0⟩
  bankMoney := 1000
  bankTabs := 1

theorem reaches_enforced_restart : ∃ b m, Reaches step UpToDate (start richGuild) b ∧ b.guild.getMember 2 = some m ∧
    m.bankWithdraw Slot.money = 60 ∧ ∀ slot, m.bankWithdraw slot = b.taken 2 slot ∧ b.taken 2 slot < 2 ^ 31 := by
  have hrun : (runSteps (allowed step UpToDate) [.withdrawMoney 2 60 false true, .moveItem 2 (some firstTab) none false, .restart,
      .withdrawMoney 2 60 false true, .moveItem 2 (some firstTab) none false, .restart, .moveItem 2 (some firstTab) none false]
      (start richGuild)).any (fun b => (b.guild.getMember 2).any fun m => m.bankWithdraw Slot.money = 60) = true := by
    decide +kernel
  obtain ⟨b, hb, hany⟩ := (Option.any_eq_true _ _).1 hrun
  obtain ⟨m, hm, hmoney⟩ := (Option.any_eq_true _ _).1 hany
  have hr : Reaches step UpToDate (start richGuild) b := .of_allowed (.of_runSteps hb)
  exact ⟨b, m, hr, hm, of_decide_eq_true hmoney, (reaches_enforced richGuild hr hm).1⟩

/-- The second withdrawal is not in the row, and after a restart the officer takes it again: 150 of his 100. -/
theorem row_falls_behind : ∃ b, Reaches step (fun _ _ => True) (start richGuild) b ∧ b.held 2 = [GR_OFFICER] ∧
    b.guild.rankPerDay GR_OFFICER Slot.money < b.taken 2 Slot.money := by
  have hrun : (runSteps step [.withdrawMoney 2 50 false true, .withdrawMoney 2 50 false true, .restart,
      .withdrawMoney 2 50 false true] (start richGuild)).any (fun b => b.held 2 = [GR_OFFICER] &&
        b.guild.rankPerDay GR_OFFICER Slot.money < b.taken 2 Slot.money) = true := by decide +kernel
  obtain ⟨b, hb, hany⟩ := (Option.any_eq_true _ _).1 hrun
  rw [Bool.and_eq_true, decide_eq_true_eq, decide_eq_true_eq] at hany
  exact ⟨b, .of_runSteps hb, hany.1, hany.2⟩

end GuildBank

end AtlasWow
