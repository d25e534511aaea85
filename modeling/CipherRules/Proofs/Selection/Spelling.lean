import CipherRules.Proofs.RuleString.Spelling
import CipherRules.Proofs.Selection.RoundTrip

/-!
# Selections — Spelling

How a rule string is spelled makes no difference to the selection.  Rules that are alike one by one
reach the same working set, so two rule strings that are read as such rules have the same choice
(`sameChoice_of_respelled`).  In the builtin catalog both names of every suite can stand in a rule
string (`writable_names_builtin`), so there it holds of every other spelling.
-/

namespace CipherRules.Selection

open RuleString (parse Phrase Respelled Respells Rewords Synonym Writable)
open Text (byteLength)

variable {catalog : Catalog} {input other : Text} {rules : List Rule}

/-- If all names of the catalog can stand in a rule string, then another spelling has the same
choice. -/
theorem sameChoice_of_respelled (hnames : ∀ s ∈ catalog.suites, ∀ n ∈ s.names, Writable n)
    (hspell : Respelled catalog input other) (h : (parse catalog input).value = .ok rules)
    (hbytes : byteLength other ≤ Limits.ruleStringBytes) :
    SameChoice (ofRuleString catalog input).value (ofRuleString catalog other).value := by
  obtain ⟨others, hothers, halike⟩ := hspell.exists_parse hnames h hbytes
  have hafter : WorkingSet.after catalog rules = .after catalog others :=
    WorkingSet.applyAll_congr halike
  rw [value_ofRuleString_of_ok h, value_ofRuleString_of_ok hothers]
  refine sameChoice_of_order_eq (withinLimits_of_parse h) (withinLimits_of_parse hothers) ?_
  rw [hafter]

theorem writable_names_builtin :
    ∀ s ∈ Catalog.builtin.suites, ∀ n ∈ s.names, Writable n := by
  intro s hs n hn
  rcases List.mem_cons.1 hn with rfl | hn
  · exact RuleString.writable_builtin s hs
  · cases List.mem_singleton.1 hn
    exact writable_opensslName_builtin s hs

/-- **Spelling does not affect the selection.**  Take a rule string that can be read and whose terms
are all keywords or names of suites of the builtin catalog, and another text within the limits that
has the same signs, in each token the same terms in any order, any number of times and under any of
their spellings, and any blanks around the tokens.  Then that text can be read too, and both select
the same suites in the same order, or both select none. -/
theorem ofRuleString_respelled (hspell : Respelled Catalog.builtin input other)
    (h : (parse Catalog.builtin input).value = .ok rules)
    (hbytes : byteLength other ≤ Limits.ruleStringBytes) :
    SameChoice (ofRuleString Catalog.builtin input).value
      (ofRuleString Catalog.builtin other).value :=
  sameChoice_of_respelled writable_names_builtin hspell h hbytes

/-- Terms in another order, one of them twice and under two spellings, a suite under its other name,
and blanks around the tokens. -/
theorem ofRuleString_respelled_rc4 :
    SameChoice (ofRuleString Catalog.builtin (.of "kRSA+RC4:-RC4-MD5 :@STRENGTH")).value
      (ofRuleString Catalog.builtin
        (.of " RC4+RSA+kRSA:-TLS_RSA_WITH_RC4_128_MD5:\t@STRENGTH\n")).value := by
  have hfirst : Respells Catalog.builtin (Operation.add.sign ++ .of "kRSA+RC4")
      (.of " RC4+RSA+kRSA") := by
    have hphrase : Phrase (.of "kRSA+RC4") [.of "kRSA", .of "RC4"] := by decide +kernel
    have hsynonym : Synonym Catalog.builtin (.of "kRSA") (.of "RSA") :=
      .keyword (p := .keyExchange [.rsa]) (by decide +kernel) (by decide +kernel)
    have htwice : Rewords Catalog.builtin [.of "kRSA", .of "RC4"]
        [.of "kRSA", .of "kRSA", .of "RC4"] := .repeated List.mem_cons_self
    have hmixed : Rewords Catalog.builtin [.of "RSA", .of "kRSA", .of "RC4"]
        [.of "RC4", .of "RSA", .of "kRSA"] := .permuted (by decide)
    have hknown : ∀ word ∈ [.of "kRSA", .of "RC4"], word ∈ Keyword.all := by decide +kernel
    exact .terms (by decide) hphrase (fun word hword => .inl (hknown word hword))
      ((htwice.trans (.exchanged hsynonym _)).trans hmixed) (by decide)
      ⟨.of " ", [], List.all_eq_true.1 (by decide), rfl⟩
  have hsecond : Respells Catalog.builtin (Operation.remove.sign ++ .of "RC4-MD5")
      (.of "-TLS_RSA_WITH_RC4_128_MD5") := by
    have hphrase : Phrase (.of "RC4-MD5") [.of "RC4-MD5"] := by decide +kernel
    have hplace : Catalog.builtin.suites[3]? = some _ := rfl
    have hsynonym : Synonym Catalog.builtin (.of "RC4-MD5") (.of "TLS_RSA_WITH_RC4_128_MD5") :=
      .suite (List.mem_of_getElem? hplace) (by decide) (by decide)
    exact .terms (by decide) hphrase (List.forall_mem_singleton.2 hsynonym.known.1)
      (.exchanged hsynonym []) (by decide) ⟨[], [], List.all_eq_true.1 rfl, rfl⟩
  have hspell : Respelled Catalog.builtin (.of "kRSA+RC4:-RC4-MD5 :@STRENGTH")
      (.of " RC4+RSA+kRSA:-TLS_RSA_WITH_RC4_128_MD5:\t@STRENGTH\n") :=
    ⟨_, _, RuleString.hasTokens_iff.2 rfl, .cons hfirst (.cons hsecond (.cons
      (.strength ⟨.of "\t", .of "\n", List.all_eq_true.1 (by decide), rfl⟩) .nil)), rfl⟩
  exact ofRuleString_respelled hspell rfl (by decide)

end CipherRules.Selection
