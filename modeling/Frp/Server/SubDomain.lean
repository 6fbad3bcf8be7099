/-
Custom domains and the subdomains that frps hands out: `checkForSvr` of
`pkg/config/proxy.go` against the domains that `Run` of `server/proxy/http.go`
registers for a subdomain.
-/
import Frp.Server.HTTPProxy

namespace Frp

open GoStrings

/-- The domain of a subdomain. -/
def claimed (serverCfg : ServerCommonConf) (subDomain : Bytes) : Bytes :=
  subDomain ++ [dot] ++ serverCfg.subDomainHost

theorem HTTPProxy.domains_eq_claimed (serverCfg : ServerCommonConf)
    (pxy : HTTPProxy) (hsub : pxy.cfg.subDomain ≠ [])
    (hcustom : pxy.cfg.customDomains.elems = []) :
    pxy.domains serverCfg = [claimed serverCfg pxy.cfg.subDomain] := by
  simp [HTTPProxy.domains, claimed, hsub, hcustom]

/-- A strict subdomain of the host. -/
def Under (host domain : Bytes) : Prop :=
  dot :: host <:+ domain

/-- The host stands somewhere in the domain, with a dot before it or after it. -/
def Around (host domain : Bytes) : Prop :=
  ∃ left right, domain = left ++ host ++ right ∧ (dot ∈ left ∨ dot ∈ right)

theorem Under.around {host domain : Bytes} (hunder : Under host domain) :
    Around host domain := by
  obtain ⟨left, rfl⟩ := hunder
  exact ⟨left ++ [dot], [], by simp, .inl (by simp)⟩

theorem under_claimed (serverCfg : ServerCommonConf) (subDomain : Bytes) :
    Under serverCfg.subDomainHost (claimed serverCfg subDomain) :=
  ⟨subDomain, by simp [claimed]⟩

/-- More labels than the host means a dot outside of it. -/
theorem around_iff {host domain : Bytes} :
    Around host domain ↔
      (splitDot host).length < (splitDot domain).length ∧
        containsSub domain host = true := by
  rw [containsSub_iff, length_splitDot, length_splitDot]
  constructor
  · rintro ⟨left, right, rfl, hdot⟩
    refine ⟨?_, ⟨left, right, rfl⟩⟩
    rw [List.count_append, List.count_append]
    rcases hdot with hleft | hright
    · have hpos := List.count_pos_iff.mpr hleft
      omega
    · have hpos := List.count_pos_iff.mpr hright
      omega
  · rintro ⟨hlength, left, right, rfl⟩
    refine ⟨left, right, rfl, ?_⟩
    rw [List.count_append, List.count_append] at hlength
    by_cases hleft : dot ∈ left
    · exact .inl hleft
    · have hzero := List.count_eq_zero.mpr hleft
      exact .inr (List.count_pos_iff.mp (by omega))

namespace DomainConf

theorem checkCustomDomain_ok_iff {serverCfg : ServerCommonConf}
    (hhost : serverCfg.subDomainHost ≠ []) {domain : Bytes} :
    checkCustomDomain serverCfg domain = .ok () ↔
      ¬ Around serverCfg.subDomainHost domain := by
  rw [around_iff, checkCustomDomain]
  split
  · rename_i hrefused
    exact ⟨nofun, fun hnot => absurd hrefused.2 hnot⟩
  · rename_i haccepted
    exact ⟨fun _ hrefused => haccepted ⟨hhost, hrefused⟩, fun _ => rfl⟩

theorem forM_ok_iff (serverCfg : ServerCommonConf) (domains : List Bytes) :
    domains.forM (checkCustomDomain serverCfg) = .ok () ↔
      ∀ domain ∈ domains, checkCustomDomain serverCfg domain = .ok () := by
  induction domains with
  | nil => simp [pure, Except.pure]
  | cons domain rest ih =>
      rw [List.forM, List.forall_mem_cons, ← ih]
      cases checkCustomDomain serverCfg domain with
      | error err => simp [bind, Except.bind]
      | ok done => simp [bind, Except.bind]

/-- With no subdomain only the custom domains are checked. -/
theorem checkForSvr_ok_iff {cfg : DomainConf} {serverCfg : ServerCommonConf}
    (hhost : serverCfg.subDomainHost ≠ [])
    (hdomains : cfg.customDomains.elems ≠ []) (hsub : cfg.subDomain = []) :
    cfg.checkForSvr serverCfg = .ok () ↔
      ∀ domain ∈ cfg.customDomains.elems,
        ¬ Around serverCfg.subDomainHost domain := by
  have hcheck : cfg.check = .ok () := by simp [check, hdomains]
  have hall := forM_ok_iff serverCfg cfg.customDomains.elems
  rw [checkForSvr, hcheck, hsub]
  cases hforM : cfg.customDomains.elems.forM (checkCustomDomain serverCfg) with
  | error err =>
      rw [hforM] at hall
      simpa [bind, Except.bind, checkCustomDomain_ok_iff hhost] using hall
  | ok done =>
      rw [hforM] at hall
      simpa [bind, Except.bind, checkSubDomain, checkCustomDomain_ok_iff hhost]
        using hall

/-- An accepted configuration has no domain of another client's subdomain. -/
theorem ne_claimed_of_ok {cfg : DomainConf} {serverCfg : ServerCommonConf}
    (hhost : serverCfg.subDomainHost ≠ [])
    (hdomains : cfg.customDomains.elems ≠ []) (hsub : cfg.subDomain = [])
    (hok : cfg.checkForSvr serverCfg = .ok ()) :
    ∀ domain ∈ cfg.customDomains.elems, ∀ label,
      domain ≠ claimed serverCfg label := by
  rintro _ hmem label rfl
  exact (checkForSvr_ok_iff hhost hdomains hsub).mp hok _ hmem
    (under_claimed serverCfg label).around

/-- The custom domains are refused when one of them belongs to the host, and only
then, and no domain of a subdomain is accepted. -/
structure RefusesExactly (cfg : DomainConf) (serverCfg : ServerCommonConf) :
    Prop where
  refused : cfg.checkForSvr serverCfg ≠ .ok () ↔
    ∃ domain ∈ cfg.customDomains.elems, Under serverCfg.subDomainHost domain
  reserved : cfg.checkForSvr serverCfg = .ok () →
    ∀ domain ∈ cfg.customDomains.elems, ∀ label,
      domain ≠ claimed serverCfg label

/-- The check is exact if no domain has the host elsewhere than at its end, or if
another one is refused rightly. -/
theorem refusesExactly_iff (cfg : DomainConf) (serverCfg : ServerCommonConf)
    (hhost : serverCfg.subDomainHost ≠ [])
    (hdomains : cfg.customDomains.elems ≠ []) (hsub : cfg.subDomain = []) :
    RefusesExactly cfg serverCfg ↔
      (∃ domain ∈ cfg.customDomains.elems,
        Under serverCfg.subDomainHost domain) ∨
      ∀ domain ∈ cfg.customDomains.elems,
        ¬ Around serverCfg.subDomainHost domain := by
  have hok := checkForSvr_ok_iff hhost hdomains hsub
  constructor
  · intro hexact
    by_cases haccepted : cfg.checkForSvr serverCfg = .ok ()
    · exact .inr (hok.mp haccepted)
    · exact .inl (hexact.refused.mp haccepted)
  · intro hcase
    refine ⟨⟨fun hrefused => ?_, ?_⟩, ne_claimed_of_ok hhost hdomains hsub⟩
    · rcases hcase with hunder | hnone
      · exact hunder
      · exact absurd (hok.mpr hnone) hrefused
    · rintro ⟨domain, hmem, hunder⟩ haccepted
      exact hok.mp haccepted domain hmem hunder.around

theorem refusesExactly_iff_other :
    RefusesExactly ⟨some [ascii "www.example.org"], []⟩
      ⟨80, 443, 0, ascii "example.com"⟩ :=
  (refusesExactly_iff ⟨some [ascii "www.example.org"], []⟩
    ⟨80, 443, 0, ascii "example.com"⟩ (by decide) (by decide) rfl).mpr
    (.inr (by simp only [around_iff]; decide))

/-- A domain of somebody else whose last labels end like the host. -/
theorem not_refusesExactly_endsLikeHost :
    (∃ err, checkForSvr ⟨some [ascii "www.myexample.com"], []⟩
      ⟨80, 443, 0, ascii "example.com"⟩ = .error err) ∧
      ¬ RefusesExactly ⟨some [ascii "www.myexample.com"], []⟩
        ⟨80, 443, 0, ascii "example.com"⟩ := by
  refine ⟨⟨_, rfl⟩, fun hexact => ?_⟩
  obtain ⟨domain, hmem, hunder⟩ := hexact.refused.mp nofun
  rw [List.mem_singleton.mp hmem] at hunder
  revert hunder
  unfold Under
  decide

end DomainConf

end Frp
