import Qpep.Client

/-!
# The address of the gateway

`openQuicSession` joins host and port by a colon and puts no brackets around the host, so only an IPv4 gateway can be dialled
(`gateway_survives_iff`).
-/

namespace Qpep

open Net

namespace GatewayConfig

/-- The address that is dialled is split into the host and the port that were configured. -/
def Survives (cfg : GatewayConfig) : Prop :=
  ∃ port, splitHostPort cfg.gatewayPath = .ok (cfg.gatewayHost, port) ∧ decimal port = some cfg.gatewayPort.toNat

/-- For every text of an IP address and every port: host and port survive exactly if the address is an IPv4 address. -/
theorem gateway_survives_iff (cfg : GatewayConfig) (hip : IPText cfg.gatewayHost) (hport : 0 ≤ cfg.gatewayPort) :
    cfg.Survives ↔ IPv4Text cfg.gatewayHost := by
  obtain ⟨hplain, hdecimal⟩ := itoa_digits hport
  have hpath : cfg.gatewayPath = cfg.gatewayHost ++ ':' :: itoa cfg.gatewayPort := by simp [gatewayPath]
  rw [Survives, hpath, ← hip.plain_iff]
  simp only [splitHostPort_join_iff hplain]
  constructor
  · rintro ⟨port, ⟨hhost, -⟩, -⟩
    exact hhost
  · intro hhost
    exact ⟨_, ⟨hhost, rfl⟩, hdecimal⟩

/-- The default gateway. -/
def defaultGateway : GatewayConfig := ⟨"198.18.0.254".toList, 4242⟩

/-- The loopback address of IPv6. -/
def loopbackGateway : GatewayConfig := ⟨"::1".toList, 4242⟩

/-- The default gateway survives. -/
theorem gateway_survives_iff_default : defaultGateway.Survives := by
  have hv4 : IPv4Text defaultGateway.gatewayHost := by
    refine ⟨[['1', '9', '8'], ['1', '8'], ['0'], ['2', '5', '4']], rfl, ?_, rfl⟩
    intro n hn
    simp only [List.mem_cons, List.not_mem_nil, or_false] at hn
    rcases hn with rfl | rfl | rfl | rfl
    · exact ⟨198, by decide, by decide⟩
    · exact ⟨18, by decide, by decide⟩
    · exact ⟨0, by decide, by decide⟩
    · exact ⟨254, by decide, by decide⟩
  exact (gateway_survives_iff defaultGateway (Or.inl hv4) (by decide)).mpr hv4

/-- The address `::1:4242` has too many colons. -/
theorem loopback_not_split :
    IPText loopbackGateway.gatewayHost ∧ loopbackGateway.gatewayPath = "::1:4242".toList ∧
      splitHostPort loopbackGateway.gatewayPath = .error ⟨"too many colons in address", "::1:4242".toList⟩ ∧
      ¬loopbackGateway.Survives := by
  have hip : IPText loopbackGateway.gatewayHost := by
    refine Or.inr (Or.inr ⟨[], [['1']], 1, by simp, Or.inl ⟨?_, rfl⟩, by decide, by decide⟩)
    intro g hg
    obtain rfl := List.mem_singleton.mp hg
    exact ⟨by decide, by decide, by decide⟩
  have hsplit : splitHostPort loopbackGateway.gatewayPath = .error ⟨"too many colons in address", "::1:4242".toList⟩ := rfl
  refine ⟨hip, by decide, hsplit, ?_⟩
  rintro ⟨port, hok, -⟩
  cases hsplit.symm.trans hok

end GatewayConfig

end Qpep
