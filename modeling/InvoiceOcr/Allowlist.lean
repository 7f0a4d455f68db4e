/-
  File:      InvoiceOcr/Allowlist.lean
  Subject:   THE DOMAIN ALLOWLIST (src/api/routes.py): `_validate_image_domain` compares texts; what
             it accepts is read label by label.

  * `labels` -- a domain name split on `.`;
  * `hostMatches_iff` -- the two text tests are one suffix test on labels;
  * **`allowlist_accepts_iff`** -- a URL passes exactly when the labels of an allowed domain end
    those of its hostname; a longer first label and an allowed name in front do not count.
-/
import InvoiceOcr.Api
import InvoiceOcr.Lists.Split

namespace InvoiceOcr

open PyJson Async

variable (cfg : Settings) (lib : Externals)

/-- The labels of a domain name. -/
def labels (name : Str) : List Str := name.splitOn '.'

theorem hostMatches_iff (hostname domain : Str) :
    hostMatches hostname domain = true ↔ labels domain <:+ labels hostname := by
  unfold hostMatches labels
  rw [Bool.or_eq_true, beq_iff_eq, List.isSuffixOf_iff_suffix, Split.splitOn_suffix_iff, eq_comm]

/-- The allowlist says yes to a hostname. -/
theorem allowlist_any_iff (hostname : Str) :
    cfg.allowedImageDomains.any (hostMatches hostname) = true ↔
      ∃ domain ∈ cfg.allowedImageDomains, labels domain <:+ labels hostname := by
  simp only [List.any_eq_true, hostMatches_iff]

/-- **What the allowlist accepts**: a URL whose hostname ends, label by label, in an allowed domain.
    A domain with text glued to its first label does not match it, and a domain in front of a name
    with another last label does not either. -/
theorem allowlist_accepts_iff :
    (∀ url, validateImageDomain cfg lib url = .ok () ↔
      ∃ hostname, lib.hostname url = .ok hostname ∧
        ∃ domain ∈ cfg.allowedImageDomains, labels domain <:+ labels (hostname.getD [])) ∧
    (∀ domain front : Str, front ≠ [] → front.getLast? ≠ some '.' →
      hostMatches (front ++ domain) domain = false) ∧
    ∀ domain rest : Str, (labels domain).getLast? ≠ (labels rest).getLast? →
      hostMatches (domain ++ '.' :: rest) domain = false := by
  refine ⟨fun url => ?_, fun domain front hfront hlast => ?_, fun domain rest hlast => ?_⟩
  · unfold validateImageDomain
    cases hhost : lib.hostname url with
    | error e => simp [bind, Except.bind]
    | ok hostname =>
      by_cases hany : cfg.allowedImageDomains.any (hostMatches (hostname.getD [])) = true
      · have hends := (allowlist_any_iff cfg _).mp hany
        simp [bind, Except.bind, hany, hends, pure, Except.pure]
      · have hends := mt (allowlist_any_iff cfg _).mpr hany
        simp [bind, Except.bind, hany, hends]
  · rw [← Bool.not_eq_true, hostMatches_iff]
    exact Split.not_splitOn_suffix_of_glued hfront hlast
  · rw [← Bool.not_eq_true, hostMatches_iff]
    exact Split.not_splitOn_suffix_of_last hlast

example : hostMatches "evil-img-campaign.gotit.vn".toList "img-campaign.gotit.vn".toList = false := by
  decide

example : hostMatches "img-campaign.gotit.vn.evil.com".toList "img-campaign.gotit.vn".toList =
    false := by decide

end InvoiceOcr
