import PtpCore.Net.GroupKeys
import PtpCore.Proof.Global.Helpers

/-!
# What is signed

The text that is signed is a prefix, the length of the message in decimal, and the message, with
nothing between them. It can be taken apart all the same: the three prefixes differ early, and a
message is longer than what its length could be confused with (`decimal_append_inj`).

For a group the number of the group stands in front of the message, and is counted with it. This
cannot be taken apart: where the number ends and the message begins is not in the text.
-/

namespace PtpCore
namespace Proof
namespace Crypto

open Lib PtpCore.Global PtpCore.Crypto Proof.Global

/-- The length of a list in front of it, without anything between. -/
theorem decimal_append_inj {a b : Bytes} (h : decimal a.length ++ a = decimal b.length ++ b) :
    a = b := by
  -- a longer message has at least as many digits, so the lengths add up to more
  have hlt : ∀ {a b : Bytes}, a.length < b.length →
      decimal a.length ++ a ≠ decimal b.length ++ b := by
    intro a b hab heq
    have hdigits := length_decimal_le (Nat.le_of_lt hab)
    have hlen := congrArg List.length heq
    simp only [List.length_append] at hlen
    omega
  rcases Nat.lt_trichotomy a.length b.length with hab | hab | hab
  · exact absurd h (hlt hab)
  · rw [hab] at h
    exact List.append_cancel_left h
  · exact absurd h.symm (hlt hab)

/-- The first five bytes of a prefix tell which it is. -/
theorem text_inj {t t' : SignMsgType}
    (h : t.text.toUTF8.toList.take 5 = t'.text.toUTF8.toList.take 5) : t = t' := by
  have hall : ∀ t ∈ [SignMsgType.eth, .ptp, .ptpGroup],
      ∀ t' ∈ [SignMsgType.eth, .ptp, .ptpGroup],
        t.text.toUTF8.toList.take 5 = t'.text.toUTF8.toList.take 5 → t = t' := by decide +kernel
  exact hall t (by cases t <;> simp) t' (by cases t' <;> simp) h

theorem length_text (t : SignMsgType) : 5 ≤ t.text.toUTF8.toList.length := by
  cases t <;> decide +kernel

theorem formatSignMsgData_inj {m m' : Bytes} {t t' : SignMsgType}
    (h : formatSignMsgData m t = formatSignMsgData m' t') : t = t' ∧ m = m' := by
  have htext : t = t' := by
    have hfive := congrArg (fun b => (b.drop 1).take 5) h
    simp only [formatSignMsgData, List.drop_succ_cons, List.drop_zero] at hfive
    rw [List.take_append_of_le_length (length_text t),
      List.take_append_of_le_length (length_text t')] at hfive
    exact text_inj hfive
  subst htext
  rw [formatSignMsgData, formatSignMsgData, List.cons.injEq] at h
  exact ⟨rfl, decimal_append_inj (List.append_cancel_left h.2)⟩

/-- The three copies print the same. -/
theorem formatSignMsgData_copy (m : Bytes) (t : SignMsgType) :
    Net.AccountManager.formatSignMsgData m t = formatSignMsgData m t := by
  cases t <;> rfl

/-- **A signed text says which kind of text it is and which message.** And it is the same text
    wherever it is made. -/
theorem signed_payload_unambiguous (m m' : Bytes) (t t' : SignMsgType) :
    (formatSignMsgData m t = formatSignMsgData m' t' → t = t' ∧ m = m') ∧
    Net.AccountManager.formatSignMsgData m t = formatSignMsgData m t ∧
    formatSignMsgData m .eth = formatEthMsgData m ∧
    Wallet.HDKeyEncoder.formatEthMsgData m = formatEthMsgData m :=
  ⟨formatSignMsgData_inj, formatSignMsgData_copy m t, rfl, rfl⟩

end Crypto
end Proof
end PtpCore
