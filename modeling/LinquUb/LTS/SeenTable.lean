import Mathlib.Data.Finset.Card
import Mathlib.Data.List.Pairwise

/-!
# Deduplication with a table of bounded size

A server answers a key it has an entry for from the entry.  Any other key is executed, and its
answer is entered if the table has room.

* `SeenTable.Inv` : the table and the calls so far;
* `SeenTable.Inv.handle` : every call keeps the invariant;
* `SeenTable.Inv.repeated` : **a key is executed once if it is one of the first `cap` distinct keys, and
  every time otherwise**.
-/

namespace LinquUb

variable {κ ρ : Type} [DecidableEq κ]

/-- A call and how it was answered. -/
structure SeenCall (κ ρ : Type) where
  key : κ
  executed : Bool
  answer : ρ

/-- How many distinct keys come before the first `k`. -/
def distinctBefore (ks : List κ) (k : κ) : ℕ := (ks.takeWhile (· ≠ k)).toFinset.card

theorem distinctBefore_le (ks : List κ) (k : κ) : distinctBefore ks k ≤ ks.toFinset.card := by
  refine Finset.card_le_card fun x hx => ?_
  rw [List.mem_toFinset] at hx ⊢
  exact (List.takeWhile_prefix _).subset hx

theorem distinctBefore_append {ks : List κ} {k : κ} (hk : k ∈ ks) (ls : List κ) :
    distinctBefore (ks ++ ls) k = distinctBefore ks k := by
  have hlength : (ks.takeWhile (· ≠ k)).length ≠ ks.length := by
    intro hlength
    have heq := (List.takeWhile_prefix (· ≠ k)).eq_of_length hlength
    have hne := List.all_eq_true.1 (List.all_takeWhile (p := (· ≠ k))) k (heq.symm ▸ hk)
    simp at hne
  rw [distinctBefore, distinctBefore, List.takeWhile_append, if_neg hlength]

theorem distinctBefore_snoc {ks : List κ} {k : κ} (hk : k ∉ ks) :
    distinctBefore (ks ++ [k]) k = ks.toFinset.card := by
  have hall : ∀ x ∈ ks, decide (x ≠ k) = true := by
    intro x hx
    exact decide_eq_true fun heq => hk (heq ▸ hx)
  rw [distinctBefore, List.takeWhile_append_of_pos hall]
  simp

namespace SeenTable

/-- Handles a call of `k`; `fresh` is the answer if the call is executed. -/
def handle (cap : ℕ) (table : List (κ × ρ)) (k : κ) (fresh : ρ) :
    SeenCall κ ρ × List (κ × ρ) :=
  match table.find? (·.1 = k) with
  | some e => (⟨k, false, e.2⟩, table)
  | none => (⟨k, true, fresh⟩, if table.length < cap then table ++ [(k, fresh)] else table)

/-- What the table knows about the calls so far. -/
structure Inv (cap : ℕ) (table : List (κ × ρ)) (cs : List (SeenCall κ ρ)) : Prop where
  size : table.length = min cap (cs.map (·.key)).toFinset.card
  entered : ∀ e ∈ table, e.1 ∈ cs.map (·.key)
  /-- The keys with an entry are the first ones. -/
  first : ∀ k ∈ cs.map (·.key), k ∈ table.map (·.1) ↔ distinctBefore (cs.map (·.key)) k < cap
  answers : ∀ c ∈ cs, ∀ e ∈ table, e.1 = c.key → c.answer = e.2
  repeats : cs.Pairwise fun c d => c.key = d.key → (d.executed = false ↔ c.key ∈ table.map (·.1))

variable {cap : ℕ} {table : List (κ × ρ)} {cs : List (SeenCall κ ρ)} {k : κ} {fresh : ρ}

omit [DecidableEq κ] in
theorem keys_snoc (cs : List (SeenCall κ ρ)) (c : SeenCall κ ρ) :
    (cs ++ [c]).map (·.key) = cs.map (·.key) ++ [c.key] := by
  simp

theorem Inv.nil : Inv cap ([] : List (κ × ρ)) [] := by
  constructor <;> simp

/-- While there is room, a key without an entry is new. -/
theorem Inv.new (h : Inv cap table cs) (hk : k ∉ table.map (·.1)) (hroom : table.length < cap) :
    k ∉ cs.map (·.key) := by
  intro hmem
  have hlate : ¬distinctBefore (cs.map (·.key)) k < cap := fun hlt => hk ((h.first k hmem).2 hlt)
  have hle := distinctBefore_le (cs.map (·.key)) k
  have hsize : table.length = cap := h.size.trans (min_eq_left (by omega))
  omega

/-- A key that was called before leaves the distinct keys as they are. -/
theorem toFinset_snoc {ks : List κ} (hk : k ∈ ks) : (ks ++ [k]).toFinset = ks.toFinset := by
  ext x
  simp only [List.mem_toFinset, List.mem_append, List.mem_singleton]
  exact ⟨fun hx => hx.elim id fun heq => heq ▸ hk, Or.inl⟩

theorem toFinset_snoc_card {ks : List κ} (hk : k ∉ ks) :
    (ks ++ [k]).toFinset.card = ks.toFinset.card + 1 := by
  have hinsert : (ks ++ [k]).toFinset = insert k ks.toFinset := by
    ext x
    simp
  rw [hinsert, Finset.card_insert_of_notMem (by simpa using hk)]

/-- The calls stay in order when the new one is answered as the table says. -/
theorem Inv.repeats_snoc (h : Inv cap table cs) {c : SeenCall κ ρ}
    (hc : c.executed = false ↔ c.key ∈ table.map (·.1)) :
    (cs ++ [c]).Pairwise fun c d =>
      c.key = d.key → (d.executed = false ↔ c.key ∈ table.map (·.1)) := by
  refine List.pairwise_append.2 ⟨h.repeats, List.pairwise_singleton _ _, fun b _ d hd heq => ?_⟩
  obtain rfl := List.mem_singleton.1 hd
  exact heq ▸ hc

/-- A call with an entry. -/
theorem Inv.hit (h : Inv cap table cs) {e : κ × ρ} (he : e ∈ table)
    (hunique : ∀ e' ∈ table, e'.1 = e.1 → e'.2 = e.2) :
    Inv cap table (cs ++ [⟨e.1, false, e.2⟩]) := by
  have hk : e.1 ∈ cs.map (·.key) := h.entered e he
  have hentry : e.1 ∈ table.map (·.1) := List.mem_map_of_mem he
  have hkeys := keys_snoc cs ⟨e.1, false, e.2⟩
  refine ⟨?_, ?_, ?_, ?_, h.repeats_snoc (by simpa using hentry)⟩
  · rw [hkeys, toFinset_snoc hk, h.size]
  · intro e' he'
    rw [hkeys]
    exact List.mem_append_left _ (h.entered e' he')
  · intro k hmem
    rw [hkeys] at hmem ⊢
    have hold : k ∈ cs.map (·.key) := by
      rcases List.mem_append.1 hmem with hold | hlast
      · exact hold
      · rwa [List.mem_singleton.1 hlast]
    rw [distinctBefore_append hold]
    exact h.first k hold
  · intro c hc e' he' heq
    rcases List.mem_append.1 hc with hold | hlast
    · exact h.answers c hold e' he' heq
    · obtain rfl := List.mem_singleton.1 hlast
      exact (hunique e' he' heq).symm

/-- A call without an entry that finds the table full. -/
theorem Inv.full (h : Inv cap table cs) (hk : k ∉ table.map (·.1)) (hfull : cap ≤ table.length) :
    Inv cap table (cs ++ [⟨k, true, fresh⟩]) := by
  have hkeys := keys_snoc cs ⟨k, true, fresh⟩
  have hcard : cap ≤ (cs.map (·.key)).toFinset.card := by
    have hsize := h.size
    omega
  refine ⟨?_, ?_, ?_, ?_, h.repeats_snoc (by simpa using hk)⟩
  · rw [hkeys, h.size]
    by_cases hmem : k ∈ cs.map (·.key)
    · rw [toFinset_snoc hmem]
    · rw [toFinset_snoc_card hmem]
      omega
  · intro e he
    rw [hkeys]
    exact List.mem_append_left _ (h.entered e he)
  · intro k' hmem
    rw [hkeys] at hmem ⊢
    by_cases hold : k' ∈ cs.map (·.key)
    · rw [distinctBefore_append hold]
      exact h.first k' hold
    · -- the new key comes after `cap` others
      obtain rfl : k' = k := by simpa [hold] using hmem
      rw [distinctBefore_snoc hold]
      exact iff_of_false hk (by omega)
  · intro c hc e he heq
    rcases List.mem_append.1 hc with hold | hlast
    · exact h.answers c hold e he heq
    · obtain rfl := List.mem_singleton.1 hlast
      exact absurd (List.mem_map.2 ⟨e, he, heq⟩) hk

/-- A call without an entry that gets one. -/
theorem Inv.enter (h : Inv cap table cs) (hk : k ∉ table.map (·.1)) (hroom : table.length < cap) :
    Inv cap (table ++ [(k, fresh)]) (cs ++ [⟨k, true, fresh⟩]) := by
  have hnew := h.new hk hroom
  have hkeys := keys_snoc cs ⟨k, true, fresh⟩
  have hentries : (table ++ [(k, fresh)]).map (·.1) = table.map (·.1) ++ [k] := by simp
  have hsize := h.size
  have hne : ∀ c ∈ cs, c.key ≠ k := fun c hc heq => hnew (heq ▸ List.mem_map_of_mem hc)
  refine ⟨?_, ?_, ?_, ?_, ?_⟩
  · rw [hkeys, toFinset_snoc_card hnew, List.length_append, List.length_singleton]
    omega
  · intro e he
    rw [hkeys]
    rcases List.mem_append.1 he with hold | hlast
    · exact List.mem_append_left _ (h.entered e hold)
    · obtain rfl := List.mem_singleton.1 hlast
      exact List.mem_append_right _ (List.mem_singleton_self k)
  · intro k' hmem
    rw [hkeys] at hmem ⊢
    rw [hentries]
    by_cases hold : k' ∈ cs.map (·.key)
    · have hk' : k' ≠ k := fun heq => hnew (heq ▸ hold)
      rw [distinctBefore_append hold, ← h.first k' hold]
      simp [hk']
    · obtain rfl : k' = k := by simpa [hold] using hmem
      rw [distinctBefore_snoc hold]
      exact iff_of_true (by simp) (by omega)
  · intro c hc e he heq
    rcases List.mem_append.1 hc with hcold | hclast <;> rcases List.mem_append.1 he with heold | helast
    · exact h.answers c hcold e heold heq
    · obtain rfl := List.mem_singleton.1 helast
      exact absurd heq.symm (hne c hcold)
    · obtain rfl := List.mem_singleton.1 hclast
      exact absurd (List.mem_map.2 ⟨e, heold, heq⟩) hk
    · obtain rfl := List.mem_singleton.1 hclast
      obtain rfl := List.mem_singleton.1 helast
      rfl
  · rw [hentries]
    refine List.pairwise_append.2 ⟨?_, List.pairwise_singleton _ _, fun c hc d hd heq => ?_⟩
    · refine h.repeats.imp_of_mem fun {c d} hc _ hcd heq => ?_
      rw [hcd heq]
      simp [hne c hc]
    · obtain rfl := List.mem_singleton.1 hd
      exact absurd heq (hne c hc)

theorem Inv.handle (h : Inv cap table cs) (k : κ) (fresh : ρ) :
    Inv cap (handle cap table k fresh).2 (cs ++ [(handle cap table k fresh).1]) := by
  unfold SeenTable.handle
  split
  case h_1 e hfind =>
    obtain rfl : e.1 = k := by simpa using List.find?_some hfind
    have he := List.mem_of_find?_eq_some hfind
    refine h.hit he fun e' he' heq => ?_
    -- both entries are the answer of the call that entered them
    obtain ⟨c, hc, hkey⟩ := List.mem_map.1 (h.entered e he)
    rw [← h.answers c hc e he hkey.symm, ← h.answers c hc e' he' (heq.trans hkey.symm)]
  case h_2 hfind =>
    have hk : k ∉ table.map (·.1) := by
      rintro hmem
      obtain ⟨e, he, rfl⟩ := List.mem_map.1 hmem
      simpa using List.find?_eq_none.1 hfind e he
    dsimp only
    split_ifs with hroom
    · exact h.enter hk hroom
    · exact h.full hk (by omega)

/-- **What a repeated key gets.** -/
theorem Inv.repeated (h : Inv cap table cs) :
    cs.Pairwise fun c d => c.key = d.key →
      if distinctBefore (cs.map (·.key)) c.key < cap
      then d.executed = false ∧ d.answer = c.answer
      else d.executed = true := by
  refine h.repeats.imp_of_mem fun {c d} hc hd hcd heq => ?_
  have hfirst := h.first c.key (List.mem_map_of_mem hc)
  split_ifs with hlt
  · obtain ⟨e, he, hkey⟩ := List.mem_map.1 (hfirst.2 hlt)
    refine ⟨(hcd heq).2 (hfirst.2 hlt), ?_⟩
    rw [h.answers c hc e he hkey, h.answers d hd e he (hkey.trans heq)]
  · have hout : ¬d.executed = false := fun hd => hlt (hfirst.1 ((hcd heq).1 hd))
    simpa using hout

end SeenTable

end LinquUb
