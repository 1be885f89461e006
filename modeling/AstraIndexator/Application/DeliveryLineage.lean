import AstraIndexator.Contracts

/-!
# Delivery lineage

A resume reuses a prepared artifact only while its checkpoint still agrees with the job.
-/

namespace AstraIndexator

/-- What the check reads from a job or from its checkpoint. -/
structure DeliveryLineage where
  sourceSha256 : Option String
  accessZoneCode : String
  requestedTtlDays : Option Int
  deriving DecidableEq

namespace DurablePreparedArtifactResume

def lineageMismatch (message : String) : AstraError :=
  .other "PreparedArtifactLineageMismatch" message false

def sourceMismatch : AstraError :=
  lineageMismatch "prepared artifact source hash differs from durable job source hash"

def zoneMismatch : AstraError :=
  lineageMismatch "prepared artifact accessZoneCode differs from durable job delivery intent"

def ttlMismatch : AstraError :=
  lineageMismatch "prepared artifact ttlDays differs from durable job delivery intent"

/-- `_assert_delivery_lineage`. -/
def assertDeliveryLineage (job checkpoint : DeliveryLineage) : Except AstraError Unit := do
  if checkpoint.sourceSha256 ≠ job.sourceSha256 then
    throw sourceMismatch
  if checkpoint.accessZoneCode ≠ job.accessZoneCode then
    throw zoneMismatch
  if checkpoint.requestedTtlDays ≠ job.requestedTtlDays then
    throw ttlMismatch

/-- The check does not stop at the zone when the codes agree. -/
theorem assertDeliveryLineage_ne_zoneMismatch {job checkpoint : DeliveryLineage}
    (h : checkpoint.accessZoneCode = job.accessZoneCode) :
    assertDeliveryLineage job checkpoint ≠ .error zoneMismatch := by
  intro hzone
  rw [assertDeliveryLineage] at hzone
  by_cases hsource : checkpoint.sourceSha256 = job.sourceSha256
  · rw [if_neg (not_not.mpr hsource), if_neg (not_not.mpr h)] at hzone
    split at hzone
    · exact absurd hzone (by decide)
    · cases hzone
  · rw [if_pos hsource] at hzone
    have hmessage : sourceMismatch = zoneMismatch := Except.error.inj hzone
    exact absurd hmessage (by decide)

end DurablePreparedArtifactResume

end AstraIndexator
