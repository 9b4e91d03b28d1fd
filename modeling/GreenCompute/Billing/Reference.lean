import GreenCompute.Foundations.Text
import Mathlib.Data.Rat.Defs

/-!
# Currencies and deposit references

Every top-up that came from a blockchain carries a *deposit reference*, the idempotency key of the
ledger. The source keeps it as one string; here it is the data the string is made of, and
`DepositRef.text` is the string:

* the watcher names one transfer: `<currency>:<tx_hash>:<log_index>` on an EVM chain,
  `<currency>:<block>:<event_index>` on Bittensor;
* a staff confirmation names a whole transaction: `manual:<currency>:<tx_hash>`;
* Stripe payments and reversals have their own prefixes.

The two kinds of key for the same money are the subject of `Billing.Transfers`. The source finds a
manual key by the pattern `manual:%:<tx>` on the lower-cased string; `likeManual` is that test on
the data, and `likeManual_iff` says it agrees with the pattern on the string.
-/

namespace GreenCompute

/-- A chain whose wallets can be verified. -/
inductive Chain where
  | bittensor
  | evm
  deriving DecidableEq

/-- The currencies an invoice can be in: the ones that have a deposit address. -/
inductive Currency where
  | usdtEth
  | usdtBase
  | usdcEth
  | usdcBase
  | usdt
  | usdc
  | tao
  | alpha
  deriving DecidableEq

/-- A currency without its chain suffix. -/
inductive BaseCurrency where
  | usdt
  | usdc
  | tao
  | alpha
  deriving DecidableEq

namespace Currency

/-- The code as the source writes it. -/
def text : Currency → Text
  | usdtEth => "usdt-eth".toList
  | usdtBase => "usdt-base".toList
  | usdcEth => "usdc-eth".toList
  | usdcBase => "usdc-base".toList
  | usdt => "usdt".toList
  | usdc => "usdc".toList
  | tao => "tao".toList
  | alpha => "alpha".toList

/-- `_base_currency`: strip the chain suffix. -/
def base : Currency → BaseCurrency
  | usdtEth | usdtBase | usdt => .usdt
  | usdcEth | usdcBase | usdc => .usdc
  | tao => .tao
  | alpha => .alpha

/-- `CURRENCY_CHAIN`: which wallet family can send each deposit currency. -/
def chain : Currency → Option Chain
  | tao | alpha => some .bittensor
  | usdtEth | usdcEth | usdtBase | usdcBase => some .evm
  | usdt | usdc => none

@[simp] theorem lower_text (c : Currency) : Text.lower c.text = c.text := by
  cases c <;> decide

theorem colon_notMem_text (c : Currency) : ':' ∉ c.text := by
  cases c <;> decide

end Currency

namespace BaseCurrency

/-- Stablecoins settle at one dollar. -/
def isStable : BaseCurrency → Bool
  | usdt | usdc => true
  | tao | alpha => false

/-- `BONUS_RATES`: only the subnet token earns a bonus. -/
def bonusRate : BaseCurrency → ℚ
  | alpha => 1 / 10
  | usdt | usdc | tao => 0

end BaseCurrency

/-- The key of one transfer seen by the deposit watcher. -/
inductive TransferRef where
  | evm (currency : Currency) (txHash : Text) (logIndex : ℕ)
  | bittensor (currency : Currency) (block eventIndex : ℕ)
  deriving DecidableEq

/-- The string form of a transfer key. -/
def TransferRef.text : TransferRef → Text
  | .evm c tx i => c.text ++ ':' :: tx ++ ':' :: (Nat.repr i).toList
  | .bittensor c b i => c.text ++ ':' :: (Nat.repr b).toList ++ ':' :: (Nat.repr i).toList

/-- The ledger's `deposit_ref`. -/
inductive DepositRef where
  | transfer (r : TransferRef)
  | manual (currency : Currency) (txHash : Text)
  | stripe (stripeSessionId : Text)
  | stripeRefund (eventId : Text)
  deriving DecidableEq

namespace DepositRef

/-- The prefix of a staff confirmation's key. -/
def manualPrefix : Text := "manual:".toList

/-- The prefix of a Stripe payment's key. -/
def stripePrefix : Text := "stripe:".toList

/-- The prefix of a Stripe reversal's key. -/
def stripeRefundPrefix : Text := "stripe-refund:".toList

/-- The string the ledger stores. -/
def text : DepositRef → Text
  | transfer r => r.text
  | manual c tx => manualPrefix ++ c.text ++ ':' :: tx
  | stripe s => stripePrefix ++ s
  | stripeRefund e => stripeRefundPrefix ++ e

/-- `lower(deposit_ref) LIKE 'manual:%:<tx>'`, for a lower-cased `tx`. A currency code has no
colon, so what the wildcard takes is the code, or the code and a part of the hash. -/
def likeManual (tx : Text) : DepositRef → Bool
  | manual _ h => Text.lower h = tx || (':' :: tx).isSuffixOf (Text.lower h)
  | _ => false

/-- A string that starts with another letter than `manual:` does not match the pattern. -/
private theorem lower_append_ne_manual {t rest mid : Text} {a : Char}
    (ht : (Text.lower t).head? = some a) (ha : a ≠ 'm') :
    Text.lower (t ++ rest) ≠ manualPrefix ++ mid := by
  intro h
  have hhead := congrArg List.head? h
  have hm : manualPrefix.head? = some 'm' := by decide
  rw [Text.lower_append, List.head?_append, List.head?_append, ht, hm] at hhead
  exact ha (Option.some.inj hhead)

private theorem lower_transfer_ne_manual (r : TransferRef) (mid : Text) :
    Text.lower r.text ≠ manualPrefix ++ mid := by
  have hhead : ∀ c : Currency, ∃ a, (Text.lower c.text).head? = some a ∧ a ≠ 'm' := by
    intro c
    cases c
    case tao => exact ⟨'t', by decide, by decide⟩
    case alpha => exact ⟨'a', by decide, by decide⟩
    all_goals exact ⟨'u', by decide, by decide⟩
  cases r with
  | evm c tx i =>
    obtain ⟨a, ha, hne⟩ := hhead c
    rw [TransferRef.text, List.append_assoc]
    exact lower_append_ne_manual ha hne
  | bittensor c b i =>
    obtain ⟨a, ha, hne⟩ := hhead c
    rw [TransferRef.text, List.append_assoc]
    exact lower_append_ne_manual ha hne

/-- The data test is the source's pattern on the string. -/
theorem likeManual_iff (tx : Text) (r : DepositRef) :
    likeManual tx r = true ↔
      ∃ mid, Text.lower r.text = manualPrefix ++ (mid ++ ':' :: tx) := by
  cases r with
  | transfer r =>
    refine iff_of_false Bool.false_ne_true ?_
    rintro ⟨mid, h⟩
    exact lower_transfer_ne_manual r _ h
  | stripe s =>
    refine iff_of_false Bool.false_ne_true ?_
    rintro ⟨mid, h⟩
    exact lower_append_ne_manual (t := stripePrefix) (a := 's') (by decide) (by decide) h
  | stripeRefund e =>
    refine iff_of_false Bool.false_ne_true ?_
    rintro ⟨mid, h⟩
    exact lower_append_ne_manual (t := stripeRefundPrefix) (a := 's') (by decide) (by decide) h
  | manual c h =>
    have hprefix : Text.lower manualPrefix = manualPrefix := by decide
    have htext : Text.lower (manual c h).text
        = manualPrefix ++ (c.text ++ ':' :: Text.lower h) := by
      rw [text, Text.lower_append, Text.lower_append, hprefix, Currency.lower_text,
        List.append_assoc]
      rfl
    simp only [htext, List.append_cancel_left_eq, likeManual, Bool.or_eq_true,
      decide_eq_true_eq, List.isSuffixOf_iff_suffix]
    constructor
    · rintro (rfl | ⟨m, hm⟩)
      · exact ⟨c.text, rfl⟩
      · exact ⟨c.text ++ ':' :: m, by rw [← hm]; simp⟩
    · rintro ⟨mid, hmid⟩
      rcases List.append_eq_append_iff.mp hmid with ⟨m, hpre, hm⟩ | ⟨m, hpre, hm⟩
      · rcases m with _ | ⟨a, m⟩
        · exact .inl (List.cons.inj hm).2
        · obtain ⟨rfl, htail⟩ := List.cons.inj hm
          exact .inr ⟨m, htail.symm⟩
      · rcases m with _ | ⟨a, m⟩
        · exact .inl (List.cons.inj hm).2.symm
        · obtain ⟨rfl, -⟩ := List.cons.inj hm
          exact absurd (hpre ▸ List.mem_append_right _ List.mem_cons_self) c.colon_notMem_text

end DepositRef

end GreenCompute
