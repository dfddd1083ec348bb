import BotSpec.Proofs.Json.Text
import BotSpec.Record.Reader

/-!
# Which member a field is read from

Reading a record is lenient: five members have a shape of their own, all others may hold anything.
Of those, each of the `looseFields` reads the one of its name, and what cannot be read there is
absent.

> `each_field_reads_its_own_key`: the objects that are records, and what a change of one member does
> to the record.

The proof has one idea. Reading the same fixed members beside other loose ones gives the same record
with other loose fields (`ofMembers_eq_map`), so that what remains is to compare these fields, one
by one.
-/

namespace BotSpec

open Json (lookup SameBut)

/-! ## Shapes -/

/-- Nothing, null, or a whole number of 64 bits. -/
def HoldsId (j : Option Json) : Prop :=
  j = none ∨ j = some .null ∨ ∃ n : Int, j = some (.whole n) ∧ -twoPow 63 ≤ n ∧ n < twoPow 63

/-- Nothing, null, or a text. -/
def HoldsText (j : Option Json) : Prop := j = none ∨ j = some .null ∨ ∃ s, j = some (.string s)

/-- The keys of the texts among the fixed members. -/
def textKeys : List String := ["strategy_name", "strategy_type", "symbol", "sizing_mode"]

/-- The members of an object that is a record. -/
structure WellShaped (members : List (String × Json)) : Prop where
  id : HoldsId (lookup "id" members)
  text : ∀ key ∈ textKeys, HoldsText (lookup key members)

/-- An id is read exactly if it is absent, null or a number that fits. -/
theorem exists_readId_iff {j : Option Json} (hlow : ∀ n, j = some (.whole n) → -twoPow 63 ≤ n) :
    (∃ id, readId j = .ok id) ↔ HoldsId j := by
  unfold readId HoldsId
  constructor
  · rintro ⟨id, h⟩
    split at h
    next => exact .inl rfl
    next => exact .inr (.inl rfl)
    next n =>
      split at h
      next hhigh => exact .inr (.inr ⟨n, rfl, hlow n rfl, hhigh⟩)
      next => cases h
    next => cases h
  · rintro (rfl | rfl | ⟨n, rfl, -, hhigh⟩)
    · exact ⟨none, rfl⟩
    · exact ⟨none, rfl⟩
    · exact ⟨some n, if_pos hhigh⟩

/-- A text is read exactly if it is absent or a text. -/
theorem exists_readText_iff {j : Option Json} : (∃ s, readText j = .ok s) ↔ HoldsText j := by
  unfold readText HoldsText
  constructor
  · rintro ⟨s, h⟩
    split at h
    next => exact .inl rfl
    next => exact .inr (.inl rfl)
    next s => exact .inr (.inr ⟨s, rfl⟩)
    next => cases h
  · rintro (rfl | rfl | ⟨s, rfl⟩)
    · exact ⟨none, rfl⟩
    · exact ⟨none, rfl⟩
    · exact ⟨some s, rfl⟩

/-! ## Loose fields -/

/-- A field of a record that is read from the member of its name, whatever it holds. -/
structure LooseField where
  name : String
  Value : Type
  get : StrategyRecord → Value
  read : Json → Option Value
  /-- The value if nothing can be read. -/
  absent : Value

namespace LooseField

/-- The value that a member gives. -/
def value (f : LooseField) (member : Option Json) : f.Value := (member.bind f.read).getD f.absent

def decimal (name : String) (get : StrategyRecord → Decimal) : LooseField :=
  ⟨name, Decimal, get, Decimal.ofJson?, .zero⟩

def count (name : String) (get : StrategyRecord → UInt32) : LooseField := ⟨name, UInt32, get, countOfJson?, 0⟩

def optional (name : String) (get : StrategyRecord → Option Decimal) : LooseField :=
  ⟨name, Option Decimal, get, fun j => (Decimal.ofJson? j).map some, none⟩

end LooseField

/-- The days and the twenty statistics. -/
def looseFields : List LooseField :=
  [.count "days" (·.days), .decimal "net_pnl" (·.stats.netPnl), .decimal "gross_pnl" (·.stats.grossPnl),
    .decimal "total_fees" (·.stats.totalFees), .decimal "win_rate" (·.stats.winRate),
    .count "total_trades" (·.stats.totalTrades), .decimal "sharpe_ratio" (·.stats.sharpeRatio),
    .decimal "sortino_ratio" (·.stats.sortinoRatio), .decimal "max_drawdown_pct" (·.stats.maxDrawdownPct),
    .decimal "profit_factor" (·.stats.profitFactor), .decimal "avg_trade_pnl" (·.stats.avgTradePnl),
    .decimal "annualized_return_pct" (·.stats.annualizedReturnPct),
    .decimal "annualized_sharpe" (·.stats.annualizedSharpe),
    .decimal "strategy_confidence" (·.stats.strategyConfidence),
    .count "max_consecutive_losses" (·.stats.maxConsecutiveLosses), .decimal "avg_win_pnl" (·.stats.avgWinPnl),
    .decimal "avg_loss_pnl" (·.stats.avgLossPnl), .decimal "total_volume" (·.stats.totalVolume),
    .decimal "composite_score" (·.stats.compositeScore), .optional "hit_rate" (·.stats.hitRate),
    .optional "avg_locked_profit" (·.stats.avgLockedProfit)]

theorem nodup_looseFields : (looseFields.map LooseField.name).Nodup := by decide +kernel

namespace StrategyRecord

variable {members others : List (String × Json)} {r : StrategyRecord}

/-- The record with the loose fields of other members. -/
def withLoose (r : StrategyRecord) (members : List (String × Json)) : StrategyRecord :=
  { r with
    days := ((lookup "days" members).bind countOfJson?).getD 0
    stats := .ofMembers members }

/-- Each loose field reads the member of its name. -/
theorem get_withLoose (r : StrategyRecord) (members : List (String × Json)) :
    ∀ f ∈ looseFields, f.get (r.withLoose members) = f.value (lookup f.name members) := by
  have hoptional (key : String) : (lookup key members).bind Decimal.ofJson? =
      ((lookup key members).bind fun j => (Decimal.ofJson? j).map some).getD none := by
    cases lookup key members with
    | none => rfl
    | some j => cases h : Decimal.ofJson? j <;> simp [h]
  simp only [looseFields, List.forall_mem_cons]
  refine ⟨rfl, rfl, rfl, rfl, rfl, rfl, rfl, rfl, rfl, rfl, rfl, rfl, rfl, rfl, rfl, rfl, rfl, rfl, rfl,
    hoptional _, hoptional _, ?_⟩
  exact List.forall_mem_nil _

/-- There are no loose fields beside those. -/
theorem withLoose_eq_self (h : ∀ f ∈ looseFields, f.get (r.withLoose members) = f.get r) :
    r.withLoose members = r := by
  obtain ⟨_, _, _, _, _, _, _, _, stats⟩ := r
  obtain ⟨⟩ := stats
  simp only [looseFields, List.forall_mem_cons, LooseField.decimal, LooseField.count, LooseField.optional, withLoose,
    BacktestStats.ofMembers] at h
  simp only [withLoose, BacktestStats.ofMembers, h]

/-! ## Reading members -/

/-- Beside the same fixed members, other ones are read to the same record with other loose fields. -/
theorem ofMembers_eq_map (h : ∀ key ∈ fixedKeys, lookup key others = lookup key members) :
    ofMembers others = (ofMembers members).map (·.withLoose others) := by
  simp only [fixedKeys, List.forall_mem_cons] at h
  obtain ⟨hid, hname, htype, hparams, hsymbol, hsizing, -⟩ := h
  simp only [ofMembers, hid, hname, htype, hparams, hsymbol, hsizing]
  cases readId (lookup "id" members) with
  | error e => rfl
  | ok id =>
    cases readText (lookup "strategy_name" members) with
    | error e => rfl
    | ok name =>
      cases readText (lookup "strategy_type" members) with
      | error e => rfl
      | ok type =>
        cases readText (lookup "symbol" members) with
        | error e => rfl
        | ok symbol => cases readText (lookup "sizing_mode" members) <;> rfl

/-- A record is read exactly if its fixed fields are, whatever the loose ones hold. -/
theorem exists_ofMembers_iff :
    (∃ r, ofMembers members = .ok r) ↔
      (∃ id, readId (lookup "id" members) = .ok id) ∧ ∀ key ∈ textKeys, ∃ s, readText (lookup key members) = .ok s := by
  simp only [textKeys, List.forall_mem_cons]
  constructor
  · rintro ⟨r, h⟩
    obtain ⟨id, hid, h⟩ := exists_of_bind_eq_ok h
    obtain ⟨name, hname, h⟩ := exists_of_bind_eq_ok h
    obtain ⟨type, htype, h⟩ := exists_of_bind_eq_ok h
    obtain ⟨symbol, hsymbol, h⟩ := exists_of_bind_eq_ok h
    obtain ⟨sizing, hsizing, -⟩ := exists_of_bind_eq_ok h
    exact ⟨⟨id, hid⟩, ⟨name, hname⟩, ⟨type, htype⟩, ⟨symbol, hsymbol⟩, ⟨sizing, hsizing⟩, List.forall_mem_nil _⟩
  · rintro ⟨⟨id, hid⟩, ⟨name, hname⟩, ⟨type, htype⟩, ⟨symbol, hsymbol⟩, ⟨sizing, hsizing⟩, -⟩
    rw [ofMembers, hid, hname, htype, hsymbol, hsizing]
    exact ⟨_, rfl⟩

/-- A record has the loose fields of the members it was read from. -/
theorem withLoose_of_ofMembers (h : ofMembers members = .ok r) : r.withLoose members = r := by
  have hmap : ofMembers members = (ofMembers members).map (·.withLoose members) := ofMembers_eq_map fun _ _ => rfl
  rw [h] at hmap
  exact (Except.ok.inj hmap).symm

/-- A value is a record if it is an object of the right shape. -/
theorem exists_ofJson_iff {v : Json} (hv : v.Sized) :
    (∃ r, ofJson v = .ok r) ↔ ∃ members, v = .object members ∧ WellShaped members := by
  have hmembers {members : List (String × Json)} (hsized : (Json.object members).Sized) :
      (∃ r, ofMembers members = .ok r) ↔ WellShaped members := by
    have hid : (∃ id, readId (lookup "id" members) = .ok id) ↔ HoldsId (lookup "id" members) :=
      exists_readId_iff fun n hn => (hsized "id" n hn).1
    rw [exists_ofMembers_iff, hid]
    simp only [exists_readText_iff]
    exact ⟨fun h => ⟨h.1, h.2⟩, fun h => ⟨h.id, h.text⟩⟩
  constructor
  · rintro ⟨r, h⟩
    cases v with
    | object members => exact ⟨members, rfl, (hmembers hv).mp ⟨r, h⟩⟩
    | _ => cases h
  · rintro ⟨members, rfl, h⟩
    exact (hmembers hv).mpr h

section Change

variable {k : String}

/-- A change of one loose member is read to the same record with other loose fields. -/
theorem ofMembers_of_sameBut (hk : k ∉ fixedKeys) (hsame : SameBut k members others)
    (h : ofMembers members = .ok r) :
    ofMembers others = .ok (r.withLoose others) := by
  have hfixed : ∀ key ∈ fixedKeys, lookup key others = lookup key members := by
    intro key hkey
    exact hsame key (ne_of_mem_of_not_mem hkey hk)
  rw [ofMembers_eq_map hfixed, h]
  rfl

/-- A change of one member is not seen by the loose fields of other names. -/
theorem get_withLoose_of_sameBut (hsame : SameBut k members others) (h : ofMembers members = .ok r) {f : LooseField}
    (hf : f ∈ looseFields) (hname : f.name ≠ k) : f.get (r.withLoose others) = f.get r :=
  calc f.get (r.withLoose others)
      = f.value (lookup f.name others) := get_withLoose r others f hf
    _ = f.value (lookup f.name members) := by rw [hsame f.name hname]
    _ = f.get (r.withLoose members) := (get_withLoose r members f hf).symm
    _ = f.get r := by rw [withLoose_of_ofMembers h]

end Change

/-- **Each field reads its own member, and nothing is too odd to be read.** A value is a record if
and only if it is an object whose id is absent, null or a whole number of 64 bits, and whose name,
type, symbol and sizing mode are absent, null or texts; all other members may hold anything. The
days and each statistic are what the member of that name gives, and absent (zero, or nothing for the
last two) if it gives nothing.

So a member beside the six fixed ones may be set or erased: the object stays a record, and of the
record no field changes but the one of that name. -/
theorem each_field_reads_its_own_key :
    (∀ text v, Json.parse text = .ok v → v.Sized) ∧
    (∀ v : Json, v.Sized → ((∃ r, ofJson v = .ok r) ↔ ∃ members, v = .object members ∧ WellShaped members)) ∧
    (looseFields.map LooseField.name).Nodup ∧
    (∀ members k, (∀ v, SameBut k members (Json.putMember members k v)) ∧ SameBut k members (Json.eraseMember members k)) ∧
    ∀ members r, ofJson (.object members) = .ok r →
      (∀ f ∈ looseFields, f.get r = f.value (lookup f.name members)) ∧
      ∀ k, k ∉ fixedKeys → ∀ others, SameBut k members others →
        ∃ r', ofJson (.object others) = .ok r' ∧ { r with days := r'.days, stats := r'.stats } = r' ∧
          (∀ f ∈ looseFields, f.name ≠ k → f.get r' = f.get r) ∧
          (k ∉ looseFields.map LooseField.name → r' = r) := by
  refine ⟨fun text v h => Json.sized_of_parse h, fun v hv => exists_ofJson_iff hv, nodup_looseFields,
    fun members k => ⟨fun v => Json.sameBut_putMember, Json.sameBut_eraseMember⟩, ?_⟩
  intro members r (h : ofMembers members = .ok r)
  constructor
  · intro f hf
    rw [← get_withLoose r members f hf, withLoose_of_ofMembers h]
  · intro k hk others hsame
    refine ⟨r.withLoose others, ofMembers_of_sameBut hk hsame h, rfl, ?_, ?_⟩
    · intro f hf hname
      exact get_withLoose_of_sameBut hsame h hf hname
    · intro hnone
      apply withLoose_eq_self
      intro f hf
      refine get_withLoose_of_sameBut hsame h hf ?_
      rintro rfl
      exact hnone (List.mem_map_of_mem hf)

/-- A win rate that holds a list instead of a number is zero, and the days stay what they are. -/
theorem each_field_reads_its_own_key_list :
    let members := [("id", .null), ("symbol", .string "BTC"), ("days", .whole 30), ("win_rate", .string "61.5")]
    ∃ r r', ofJson (.object members) = .ok r ∧
      ofJson (.object (Json.putMember members "win_rate" (.array []))) = .ok r' ∧
      r.days = 30 ∧ r'.days = 30 ∧ r'.stats.winRate = .zero := by
  intro members
  obtain ⟨-, haccepted, -, hedits, hfields⟩ := each_field_reads_its_own_key
  have hsized : (Json.object members).Sized := by
    intro key n h
    have hmem : (key, Json.whole n) ∈ members := Json.mem_of_lookup_eq_some h
    obtain ⟨-, rfl⟩ : key = "days" ∧ n = 30 := by simpa [members] using hmem
    decide
  have htext : ∀ key ∈ textKeys, HoldsText (lookup key members) := by
    simp only [textKeys, List.forall_mem_cons]
    exact ⟨.inl rfl, .inl rfl, .inr (.inr ⟨"BTC", rfl⟩), .inl rfl, List.forall_mem_nil _⟩
  obtain ⟨r, hr⟩ := (haccepted _ hsized).mpr ⟨members, rfl, .inr (.inl rfl), htext⟩
  obtain ⟨hread, hchange⟩ := hfields members r hr
  obtain ⟨r', hr', -, hother, -⟩ := hchange "win_rate" (by decide) _ ((hedits members "win_rate").1 (.array []))
  obtain ⟨hread', -⟩ := hfields _ r' hr'
  have hdays : r.days = 30 := hread (.count "days" (·.days)) (by simp [looseFields])
  have hkept : r'.days = r.days := hother (.count "days" (·.days)) (by simp [looseFields]) (by decide)
  have hzero : r'.stats.winRate = .zero := hread' (.decimal "win_rate" (·.stats.winRate)) (by simp [looseFields])
  exact ⟨r, r', hr, hr', hdays, hkept.trans hdays, hzero⟩

end StrategyRecord

end BotSpec
