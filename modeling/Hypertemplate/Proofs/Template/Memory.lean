import Hypertemplate.Proofs.Template.Tokens
import Mathlib.Data.Finset.Card
import Mathlib.Data.List.Dedup

/-!
# Remembered texts

A cache keeps the pieces of each text that it was ever asked to cut, and nothing is taken out of it again. Whatever
was asked before, it holds the pieces of the texts themselves (`Remembers`), so that every call gives what it gives
on an empty cache, and there is one entry for each different text (`cache_transparent`).
-/

namespace Hypertemplate.Template

open Json

/-! ## Calls -/

/-- What a cache is asked: to cut a text into its pieces, or to replace its placeholders. -/
inductive CacheCall where
  | pieces (text : String)
  | resolve (text : String) (item : Value)

/-- What a cache answers. -/
inductive CacheAnswer where
  | pieces (pieces : List Piece)
  | resolved (result : Option Resolved)

namespace CacheCall

/-- What a cache answers to a call, and the cache afterwards. -/
def run (cache : TokenCache) : CacheCall → CacheAnswer × TokenCache
  | .pieces text => (.pieces (cache.tokenize text).1, (cache.tokenize text).2)
  | .resolve text item => (.resolved (cache.resolve? text item).1, (cache.resolve? text item).2)

/-- The answer to a call without a cache. -/
def answer : CacheCall → CacheAnswer
  | .pieces text => .pieces (tokenize text)
  | .resolve text item => .resolved (resolve? text item)

/-- The text that a call leaves in the cache: a text without openings is not cut when its placeholders are
replaced. -/
def remembered? : CacheCall → Option String
  | .pieces text => some text
  | .resolve text _ => if ['$', '\x7b'] <:+: text.toList then some text else none

end CacheCall

/-- What a cache answers to calls made one after the other, and the cache afterwards. -/
def TokenCache.runAll (cache : TokenCache) : List CacheCall → List CacheAnswer × TokenCache
  | [] => ([], cache)
  | c :: rest =>
    let (answer, cache) := c.run cache
    let (answers, cache) := runAll cache rest
    (answer :: answers, cache)

/-! ## Openings -/

theorem splitAtOpening?_isSome_iff (cs : List Char) :
    (splitAtOpening? cs).isSome = true ↔ ['$', '\x7b'] <:+: cs := by
  constructor
  · intro h
    obtain ⟨⟨before, body⟩, hsplit⟩ := Option.isSome_iff_exists.mp h
    exact ⟨before, body, by rw [splitAtOpening?_eq_some hsplit]; simp⟩
  · fun_induction splitAtOpening? cs with
    | case1 => simp
    | case2 body => exact fun _ => rfl
    | case3 c rest hne ih =>
      rintro ⟨before, body, hcs⟩
      rw [Option.isSome_map]
      cases before with
      | nil =>
        obtain ⟨hc, hrest⟩ := List.cons.inj hcs
        exact absurd hrest.symm (hne body hc.symm)
      | cons c' before => exact ih ⟨before, body, (List.cons.inj hcs).2⟩

/-! ## What is in the cache -/

/-- A cache holds the pieces of some texts, the last one first: each text once, whatever its place among them. -/
def TokenCache.Remembers (cache : TokenCache) (texts : List String) : Prop :=
  cache.entries = texts.dedup.map fun text => (text, Template.tokenize text)

namespace TokenCache.Remembers

variable {cache : TokenCache} {texts : List String}

theorem size_eq (h : cache.Remembers texts) : cache.size = texts.toFinset.card := by
  rw [TokenCache.size, h, List.length_map, List.card_toFinset]

theorem find?_eq (h : cache.Remembers texts) (text : String) : cache.entries.find? (·.1 == text) =
    if text ∈ texts then some (text, Template.tokenize text) else none := by
  rw [h, List.find?_map]
  cases hfind : texts.dedup.find? ((fun entry => entry.1 == text) ∘ fun text => (text, Template.tokenize text)) with
  | none =>
    have hmem : text ∉ texts := fun hmem =>
      List.find?_eq_none.mp hfind text (List.mem_dedup.mpr hmem) (beq_self_eq_true text)
    rw [if_neg hmem, Option.map_none]
  | some key =>
    have hkey := List.find?_some hfind
    obtain rfl : key = text := eq_of_beq hkey
    rw [if_pos (List.mem_dedup.mp (List.mem_of_find?_eq_some hfind)), Option.map_some]

/-- A text is cut into its own pieces and is remembered afterwards. -/
theorem tokenize (h : cache.Remembers texts) (text : String) :
    (cache.tokenize text).1 = Template.tokenize text ∧ (cache.tokenize text).2.Remembers (text :: texts) := by
  rw [TokenCache.tokenize, h.find?_eq]
  by_cases hmem : text ∈ texts
  · rw [if_pos hmem]
    exact ⟨rfl, by rw [Remembers, List.dedup_cons_of_mem hmem]; exact h⟩
  · rw [if_neg hmem]
    refine ⟨rfl, ?_⟩
    rw [Remembers, List.dedup_cons_of_notMem hmem, List.map_cons, ← h]

/-- One call is answered as without a cache, and its text is remembered. -/
theorem run (h : cache.Remembers texts) (c : CacheCall) : (c.run cache).1 = c.answer ∧
    (c.run cache).2.Remembers (c.remembered?.toList ++ texts) := by
  cases c with
  | pieces text => exact ⟨congrArg CacheAnswer.pieces (h.tokenize text).1, (h.tokenize text).2⟩
  | resolve text item =>
    obtain ⟨hpieces, hcache⟩ := h.tokenize text
    rw [CacheCall.run, CacheCall.answer, CacheCall.remembered?, TokenCache.resolve?, Template.resolve?]
    by_cases hopening : ['$', '\x7b'] <:+: text.toList
    · rw [if_pos hopening, if_pos ((splitAtOpening?_isSome_iff _).mpr hopening),
        if_pos ((splitAtOpening?_isSome_iff _).mpr hopening)]
      refine ⟨?_, hcache⟩
      change CacheAnswer.resolved (assemble? text item (cache.tokenize text).1) = _
      rw [hpieces]
    · rw [if_neg hopening, if_neg (mt (splitAtOpening?_isSome_iff _).mp hopening),
        if_neg (mt (splitAtOpening?_isSome_iff _).mp hopening)]
      exact ⟨rfl, h⟩

/-- Calls are answered as without a cache, and all their texts are remembered. -/
theorem runAll (calls : List CacheCall) : ∀ {cache : TokenCache} {texts : List String},
    cache.Remembers texts → (cache.runAll calls).1 = calls.map CacheCall.answer ∧
      (cache.runAll calls).2.Remembers ((calls.filterMap CacheCall.remembered?).reverse ++ texts) := by
  induction calls with
  | nil => exact fun h => ⟨rfl, h⟩
  | cons c rest ih =>
    intro cache texts h
    obtain ⟨hanswer, hcache⟩ := h.run c
    obtain ⟨hanswers, hall⟩ := ih hcache
    refine ⟨?_, ?_⟩
    · rw [TokenCache.runAll, List.map_cons, ← hanswer, ← hanswers]
    · rw [TokenCache.runAll, List.filterMap_cons]
      cases hc : c.remembered? <;> simpa [hc] using hall

end TokenCache.Remembers

theorem remembers_nil : ({} : TokenCache).Remembers [] := rfl

/-- Calls on one cache, whatever they are and however often a text comes, are answered as each of them is on an empty
cache, which is as without a cache at all. The cache then holds one entry for each different text that was cut, or
whose placeholders were replaced and that has an opening. -/
theorem cache_transparent (calls : List CacheCall) :
    (TokenCache.runAll {} calls).1 = calls.map (fun c => (c.run {}).1) ∧
    (TokenCache.runAll {} calls).1 = calls.map CacheCall.answer ∧
    (TokenCache.runAll {} calls).2.size = (calls.filterMap CacheCall.remembered?).toFinset.card := by
  obtain ⟨hanswers, hcache⟩ := remembers_nil.runAll calls
  refine ⟨?_, hanswers, ?_⟩
  · rw [hanswers]
    exact List.map_congr_left fun c _ => (remembers_nil.run c).1.symm
  · rw [hcache.size_eq, List.append_nil, List.toFinset_reverse]

/-- A text without openings is not remembered when its placeholders are replaced, and a text comes in only once. -/
example : (TokenCache.runAll {} [.resolve "a" .null, .pieces "$\x7ba\x7d", .resolve "$\x7ba\x7d" .null]).2.size =
    1 := by
  decide +kernel

end Hypertemplate.Template
