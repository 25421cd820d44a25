import WqcNode.Lib.SerdeShape
import WqcNode.Lib.SerdeValue

/-! # Egress location (`domain/geo.rs`, `infra/geoip.rs`)

Three providers are asked one after the other until one gives a location, which is cached for a day.
They answer with JSON, so the coordinates of a location are finite (`fetchGeolocation_finite`). -/

namespace WqcNode.Domain.Geo

open WqcNode.Lib WqcNode.Lib.Json WqcNode.Lib.JsonText WqcNode.Lib.Serde WqcNode.Lib.SerdeValue
open WqcNode.Lib.SerdeShape

/-- `GEO_CACHE_TTL_SECS`. -/
def geoCacheTtlSecs : ℤ := 86400

structure GeoInfo where
  latitude : F64
  longitude : F64
  country : String
  city : String
deriving DecidableEq

/-- The coordinates are finite. -/
structure GeoInfo.Finite (g : GeoInfo) : Prop where
  latitude : isFinite g.latitude = true
  longitude : isFinite g.longitude = true

/-- A response, with its body if that can be read. -/
structure Response where
  status : ℕ
  body : Option Bytes

/-- `StatusCode::is_success`. -/
def Response.isSuccess (r : Response) : Bool := 200 ≤ r.status && r.status < 300

section Providers

variable (fc : FloatCodec)

/-- The location in a record with these names for its fields. -/
def geoOf (latitude longitude country city : String) (doc : Document Decimal) : Option GeoInfo :=
  match fieldsOnce [latitude, longitude, country, city] doc with
  | some [lat, lon, country, city] => do
    return ⟨← required (f64Of fc) lat, ← required (f64Of fc) lon, ← required textOf country,
      ← required textOf city⟩
  | _ => none

/-- `IpApiJsonResponse`, with its status. -/
def ipApiJsonResponseOf (doc : Document Decimal) : Option (GeoInfo × String) :=
  match fieldsOnce ["lat", "lon", "country", "city", "status"] doc with
  | some [lat, lon, country, city, status] => do
    return (⟨← required (f64Of fc) lat, ← required (f64Of fc) lon, ← required textOf country,
      ← required textOf city⟩, ← required textOf status)
  | _ => none

/-- `FreeIpApiResponse`. -/
def freeIpApiResponseOf : Document Decimal → Option GeoInfo :=
  geoOf fc "latitude" "longitude" "countryName" "cityName"

/-- `IpApiCoResponse`. -/
def ipApiCoResponseOf : Document Decimal → Option GeoInfo :=
  geoOf fc "latitude" "longitude" "country_name" "city"

/-- The JSON of a response that is a success, in a record with these names. -/
def jsonOf {α : Type} (names : List String) (read : Document Decimal → Option α)
    (res : Option Response) : Option α := do
  let res ← res
  if res.status = 429 || !res.isSuccess then none
  else (← fromSliceAs (.flat names) (← res.body)) |> read

def tryIpApi (res : Option Response) : Option GeoInfo := do
  let (location, status) ← jsonOf ["lat", "lon", "country", "city", "status"]
    (ipApiJsonResponseOf fc) res
  if status ≠ "success" then none else return location

def tryFreeIpApi (res : Option Response) : Option GeoInfo :=
  jsonOf ["latitude", "longitude", "countryName", "cityName"] (freeIpApiResponseOf fc) res

def tryIpapiCo (res : Option Response) : Option GeoInfo :=
  jsonOf ["latitude", "longitude", "country_name", "city"] (ipApiCoResponseOf fc) res

/-- What the providers answer, if they are asked. -/
structure Answers where
  ipApi : Option Response := none
  freeIpApi : Option Response := none
  ipapiCo : Option Response := none

/-- Multi-provider fallback. -/
def fetchGeolocation (answers : Answers) : Option GeoInfo :=
  match tryIpApi fc answers.ipApi with
  | some info => some info
  | none =>
    match tryFreeIpApi fc answers.freeIpApi with
    | some info => some info
    | none => tryIpapiCo fc answers.ipapiCo

variable {fc} {doc : Document Decimal} {g : GeoInfo} {res : Option Response}

theorem isFinite_of_required {field : Option (Document Decimal)} {f : F64}
    (h : required (f64Of fc) field = some f) : isFinite f = true := by
  obtain ⟨doc, -, hread⟩ := Option.bind_eq_some_iff.mp h
  unfold f64Of at hread
  split at hread
  · obtain ⟨f', -, rfl⟩ := Option.map_eq_some_iff.mp hread
    exact f'.2
  · cases hread

theorem geoOf_finite {latitude longitude country city : String}
    (h : geoOf fc latitude longitude country city doc = some g) : g.Finite := by
  unfold geoOf at h
  split at h
  · obtain ⟨lat, hlat, h⟩ := Option.bind_eq_some_iff.mp h
    obtain ⟨lon, hlon, h⟩ := Option.bind_eq_some_iff.mp h
    obtain ⟨_, -, h⟩ := Option.bind_eq_some_iff.mp h
    obtain ⟨_, -, h⟩ := Option.bind_eq_some_iff.mp h
    cases h
    exact ⟨isFinite_of_required hlat, isFinite_of_required hlon⟩
  · cases h

theorem ipApiJsonResponseOf_finite {status : String}
    (h : ipApiJsonResponseOf fc doc = some (g, status)) : g.Finite := by
  unfold ipApiJsonResponseOf at h
  split at h
  · obtain ⟨lat, hlat, h⟩ := Option.bind_eq_some_iff.mp h
    obtain ⟨lon, hlon, h⟩ := Option.bind_eq_some_iff.mp h
    obtain ⟨_, -, h⟩ := Option.bind_eq_some_iff.mp h
    obtain ⟨_, -, h⟩ := Option.bind_eq_some_iff.mp h
    obtain ⟨_, -, h⟩ := Option.bind_eq_some_iff.mp h
    cases h
    exact ⟨isFinite_of_required hlat, isFinite_of_required hlon⟩
  · cases h

theorem jsonOf_eq_some {α : Type} {names : List String} {read : Document Decimal → Option α} {a : α}
    (h : jsonOf names read res = some a) : ∃ doc, read doc = some a := by
  unfold jsonOf at h
  obtain ⟨r, -, h⟩ := Option.bind_eq_some_iff.mp h
  split_ifs at h
  obtain ⟨body, -, h⟩ := Option.bind_eq_some_iff.mp h
  obtain ⟨doc, -, h⟩ := Option.bind_eq_some_iff.mp h
  exact ⟨doc, h⟩

/-- **A location that is fetched** has finite coordinates, whichever provider gave it. -/
theorem fetchGeolocation_finite {answers : Answers} (h : fetchGeolocation fc answers = some g) :
    g.Finite := by
  unfold fetchGeolocation at h
  split at h
  · next info hinfo =>
    cases h
    unfold tryIpApi at hinfo
    obtain ⟨⟨location, status⟩, hjson, hinfo⟩ := Option.bind_eq_some_iff.mp hinfo
    simp only at hinfo
    split_ifs at hinfo
    cases hinfo
    obtain ⟨doc, hdoc⟩ := jsonOf_eq_some hjson
    exact ipApiJsonResponseOf_finite hdoc
  · split at h
    · next info hinfo =>
      cases h
      obtain ⟨doc, hdoc⟩ := jsonOf_eq_some hinfo
      exact geoOf_finite hdoc
    · obtain ⟨doc, hdoc⟩ := jsonOf_eq_some h
      exact geoOf_finite hdoc

end Providers

/-! ### The cache -/

/-- The row of `geo_cache`. -/
structure GeoRow where
  info : GeoInfo
  /-- unix seconds -/
  updatedAt : ℤ

/-- Within the last 24 hours. -/
def getCachedGeo (row : Option GeoRow) (now : ℤ) : Option GeoInfo :=
  (row.filter fun r => now - r.updatedAt < geoCacheTtlSecs).map (·.info)

theorem getCachedGeo_mem {row : Option GeoRow} {now : ℤ} {g : GeoInfo}
    (h : getCachedGeo row now = some g) : ∃ r ∈ row, r.info = g := by
  unfold getCachedGeo at h
  obtain ⟨r, hr, rfl⟩ := Option.map_eq_some_iff.mp h
  exact ⟨r, (Option.filter_eq_some_iff.mp hr).1, rfl⟩

end WqcNode.Domain.Geo
