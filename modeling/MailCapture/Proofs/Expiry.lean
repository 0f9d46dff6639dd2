import MailCapture.Lease
/-!
When a lease counts as expired, told by the clock: more than its duration has passed since it was
renewed, also where the stored time has lost what is smaller than a microsecond.
-/
namespace MailCapture

namespace Time

def total (t : Time) : Int := t.seconds * 1000000000 + t.nanos

/-- The time of a clock that counts nanoseconds since 1970 and knows no leap seconds. -/
def ofTotal (n : Int) : Time := ⟨n / 1000000000, (n % 1000000000).toNat⟩

def toMicros (t : Time) : Time := ⟨t.seconds, t.nanos / 1000 * 1000⟩

@[simp] theorem total_ofTotal (n : Int) : (ofTotal n).total = n := by
  simp only [total, ofTotal]
  omega

theorem nanos_ofTotal_lt (n : Int) : (ofTotal n).nanos < 1000000000 := by
  simp only [ofTotal]
  omega

/-- Without leap seconds the time between two points is their difference. -/
theorem nanosBetween_eq {start stop : Time} (h : start.nanos < 1000000000)
    (h' : stop.nanos < 1000000000) : nanosBetween start stop = stop.total - start.total := by
  unfold nanosBetween total
  simp only [Nat.not_le.2 h, Nat.not_le.2 h', ↓reduceIte, ite_self]
  omega

/-- Whole seconds are counted down. -/
theorem lt_of_lt_secondsBetween {start stop : Time} {d : Int} (hd : 0 ≤ d)
    (h : d < secondsBetween start stop) : (d + 1) * 1000000000 ≤ nanosBetween start stop := by
  unfold secondsBetween at h
  generalize nanosBetween start stop = n at h ⊢
  by_cases hn : 0 ≤ n
  · rw [Int.tdiv_eq_ediv_of_nonneg hn] at h
    omega
  · have hneg : n.tdiv 1000000000 ≤ 0 := by
      have := Int.tdiv_nonneg (a := -n) (b := 1000000000) (by omega) (by omega)
      rw [Int.neg_tdiv] at this
      omega
    omega

theorem nanos_toMicros_lt {t : Time} (h : t.nanos < 1000000000) :
    t.toMicros.nanos < 1000000000 := by
  simp only [toMicros]
  omega

/-- Less than a microsecond is lost. -/
theorem total_toMicros (t : Time) : t.total - 1000 < t.toMicros.total ∧
    t.toMicros.total ≤ t.total := by
  simp only [total, toMicros]
  omega

end Time

namespace Lease

def renewed? (l : Lease) : Option Time := l.spec.bind (·.renewTime)

def duration? (l : Lease) : Option Int32 := l.spec.bind (·.leaseDurationSeconds)

theorem isExpired_iff {l : Lease} {renewed : Time} {duration : Int32}
    (hr : l.renewed? = some renewed) (hd : l.duration? = some duration) (now : Time) :
    l.isExpired now = true ↔ duration.toInt < renewed.secondsBetween now := by
  unfold renewed? at hr
  unfold duration? at hd
  unfold isExpired
  cases hs : l.spec with
  | none =>
    rw [hs] at hr
    cases hr
  | some spec =>
    rw [hs] at hr hd
    obtain ⟨a, h, d, x, p, n, y⟩ := spec
    cases hr
    cases hd
    simp

/-- What a server keeps of a lease that is written to it: the holder, the duration and, at least to
the microsecond, the time of the renewal. -/
structure KeptAs (written stored : Lease) : Prop where
  holder : stored.holder? = written.holder?
  duration : stored.duration? = written.duration?
  renewed : stored.renewed? = written.renewed? ∨
    stored.renewed? = written.renewed?.map Time.toMicros

/-- A stored lease that counts as expired was written longer ago than it lasts. -/
theorem KeptAs.elapsed {written stored : Lease} (h : written.KeptAs stored) {sampled now : Int}
    {duration : Int32} (hr : written.renewed? = some (Time.ofTotal sampled))
    (hd : written.duration? = some duration) (hpos : 0 ≤ duration.toInt)
    (he : stored.isExpired (Time.ofTotal now) = true) :
    sampled + duration.toInt * 1000000000 < now := by
  have hnow := Time.nanos_ofTotal_lt now
  have hsampled := Time.nanos_ofTotal_lt sampled
  have hstored := h.duration.trans hd
  cases h.renewed with
  | inl hexact =>
    have hlt := (isExpired_iff (hexact.trans hr) hstored _).1 he
    have hbetween := Time.lt_of_lt_secondsBetween hpos hlt
    rw [Time.nanosBetween_eq hsampled hnow, Time.total_ofTotal, Time.total_ofTotal] at hbetween
    omega
  | inr hmicros =>
    rw [hr, Option.map_some] at hmicros
    have hlt := (isExpired_iff hmicros hstored _).1 he
    have hbetween := Time.lt_of_lt_secondsBetween hpos hlt
    rw [Time.nanosBetween_eq (Time.nanos_toMicros_lt hsampled) hnow, Time.total_ofTotal]
      at hbetween
    -- the duration is a whole number of seconds, so a lost microsecond does not matter
    have hlost := (Time.total_toMicros (Time.ofTotal sampled)).1
    rw [Time.total_ofTotal] at hlost
    omega

end Lease
end MailCapture
