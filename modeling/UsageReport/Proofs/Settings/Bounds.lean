/-
Bounds of settings.  A number that was read between bounds lies between them, so metrics that
are made for settings from a dictionary can always make histograms.
-/
import UsageReport.Client
import UsageReport.Proofs.Settings.Fields

namespace UsageReport

/-- A client whose settings came from a dictionary has metrics that can make histograms. -/
theorem Client.metrics_limit_le {coercions : Field.Coercions} {given : Pairs} {config : ConfigFile}
    (h : Settings.ofPairs coercions given = .ok config.settings) :
    (Client.metrics config).limit ≤ Metrics.greatestLimit := by
  obtain ⟨-, hmost⟩ := (Settings.ofPairs_eq_ok_iff.mp h).sampleLimit_bounds
  have hgreatest : Metrics.greatestLimit = 9223372036854775807 := by decide
  have hlimit : (Client.metrics config).limit = max 10 config.settings.sampleLimit.toNat := rfl
  omega

end UsageReport
