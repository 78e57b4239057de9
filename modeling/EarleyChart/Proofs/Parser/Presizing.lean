import EarleyChart.Parser.Basic

/-!
The room that a pool sets aside for a number of tokens. It is a whole number of blocks, grows
with the number, and holds 32 slots for each token and for the beginning, up to the greatest
number of blocks. One number is excepted, the greatest word: the number of columns that
belongs to it is no word any more.
-/

namespace EarleyChart

namespace Arena

def exactBlocks (tokens : Nat) : Nat :=
  max 1 (min 1024 ((32 * (tokens + 1) + blockSize - 1) / blockSize))

theorem exactBlocks_mono {n m : Nat} (h : n ≤ m) : exactBlocks n ≤ exactBlocks m := by
  have hdiv : (32 * (n + 1) + blockSize - 1) / blockSize ≤
      (32 * (m + 1) + blockSize - 1) / blockSize := Nat.div_le_div_right (by omega)
  simp only [exactBlocks]
  omega

/-- The blocks hold all the slots that are estimated, as far as blocks are made. -/
theorem slots_le_exactBlocks (tokens : Nat) :
    min (32 * (tokens + 1)) (1024 * blockSize) ≤ exactBlocks tokens * blockSize := by
  simp only [exactBlocks, blockSize]
  omega

/-- An estimate that is cut off at or above the greatest number of blocks asks for as many
blocks as the whole one. -/
theorem blocks_cutOff (estimate : Nat) {limit : Nat} (h : 1024 * blockSize ≤ limit) :
    min 1024 ((min estimate limit + blockSize - 1) / blockSize) =
      min 1024 ((estimate + blockSize - 1) / blockSize) := by
  simp only [blockSize] at h ⊢
  omega

/-- Below the greatest word the number of columns is a word too. -/
theorem blocksForTokens_eq {tokens : Nat} (h : tokens + 1 < UInt64.size) :
    blocksForTokens tokens = exactBlocks tokens := by
  have hlimit : 1024 * blockSize ≤ UInt64.size - 1 := by decide
  simp only [blocksForTokens, exactBlocks]
  rw [Nat.mod_eq_of_lt h, blocks_cutOff _ hlimit, Nat.mul_comm]

theorem blocksForTokens_range (tokens : Nat) :
    1 ≤ blocksForTokens tokens ∧ blocksForTokens tokens ≤ 1024 := by
  simp only [blocksForTokens]
  omega

theorem capacity_forTokens (tokens : Nat) :
    (forTokens tokens).capacity = blocksForTokens tokens * blockSize := rfl

/-- The successor of the greatest word is zero, and for no columns there is one block. -/
theorem capacity_forTokens_last : (forTokens (UInt64.size - 1)).capacity = blockSize := by
  decide

end Arena

namespace Parser

/-- Below the greatest word the room grows with the number of tokens and holds all the slots
that are estimated, up to the greatest number of blocks. It is a whole number of blocks for
every number. A parser has this room for the number of tokens in its settings, with the greatest
word as the one exception: there it has one block. -/
theorem pool_presized (g : Grammar) :
    (∀ n m, n ≤ m → m + 1 < UInt64.size →
      (Arena.forTokens n).capacity ≤ (Arena.forTokens m).capacity) ∧
    (∀ n, ∃ blocks, 1 ≤ blocks ∧ blocks ≤ 1024 ∧
      (Arena.forTokens n).capacity = blocks * Arena.blockSize) ∧
    (∀ n, n + 1 < UInt64.size →
      min (32 * (n + 1)) (1024 * Arena.blockSize) ≤ (Arena.forTokens n).capacity) ∧
    ∀ config : Config, config.expectedTokens < UInt64.size →
      (withConfig g config).chart.arena = .forTokens config.expectedTokens ∧
        (config.expectedTokens + 1 < UInt64.size ∨
          config.expectedTokens + 1 = UInt64.size ∧
            (withConfig g config).chart.arena.capacity = Arena.blockSize) := by
  refine ⟨?_, ?_, ?_, ?_⟩
  · intro n m hle hm
    rw [Arena.capacity_forTokens, Arena.capacity_forTokens, Arena.blocksForTokens_eq (by omega),
      Arena.blocksForTokens_eq hm]
    exact Nat.mul_le_mul_right _ (Arena.exactBlocks_mono hle)
  · intro n
    have hrange := Arena.blocksForTokens_range n
    exact ⟨Arena.blocksForTokens n, hrange.1, hrange.2, Arena.capacity_forTokens n⟩
  · intro n hn
    rw [Arena.capacity_forTokens, Arena.blocksForTokens_eq hn]
    exact Arena.slots_le_exactBlocks n
  · intro config hword
    refine ⟨rfl, ?_⟩
    by_cases hlast : config.expectedTokens + 1 < UInt64.size
    · exact .inl hlast
    · have heq : config.expectedTokens + 1 = UInt64.size := by omega
      refine .inr ⟨heq, ?_⟩
      have htokens : config.expectedTokens = UInt64.size - 1 := by omega
      show (Arena.forTokens config.expectedTokens).capacity = Arena.blockSize
      rw [htokens]
      exact Arena.capacity_forTokens_last

/-- Settings for a thousand tokens, in a parser for a grammar with one terminal. -/
theorem pool_presized_thousand :
    let g : Grammar := { terminals := [⟨"a", 0⟩], nonterminals := ["S"], rules := #[], start := 2 }
    let config : Config := { Config.standard with expectedTokens := 1000 }
    1000 < UInt64.size ∧ (withConfig g config).chart.arena = .forTokens 1000 ∧
      (Arena.forTokens 1000).capacity ≤ (Arena.forTokens (UInt64.size - 2)).capacity ∧
      (∃ blocks, 1 ≤ blocks ∧ blocks ≤ 1024 ∧
        (Arena.forTokens 1000).capacity = blocks * Arena.blockSize) ∧
      32032 ≤ (Arena.forTokens 1000).capacity := by
  intro g config
  obtain ⟨hmono, hwhole, hslots, hsettings⟩ := pool_presized g
  exact ⟨by decide, (hsettings config (by decide)).1,
    hmono 1000 (UInt64.size - 2) (by decide) (by decide), hwhole 1000, hslots 1000 (by decide)⟩

/-- The greatest word leads to less room than a thousand. -/
theorem greatest_word_shrinks :
    let config : Config := { Config.standard with expectedTokens := UInt64.size - 1 }
    config.expectedTokens < UInt64.size ∧
      (Arena.forTokens config.expectedTokens).capacity = 1024 ∧
      (Arena.forTokens 1000).capacity = 32768 ∧
      ¬ (Arena.forTokens 1000).capacity ≤ (Arena.forTokens config.expectedTokens).capacity ∧
      ¬ min (32 * (config.expectedTokens + 1)) (1024 * Arena.blockSize) ≤
        (Arena.forTokens config.expectedTokens).capacity :=
  ⟨by decide, by decide, by decide, by decide, by decide⟩

end Parser
end EarleyChart
