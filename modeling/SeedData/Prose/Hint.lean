/-
Text that looks like what a column's name promises. `Hint.ofColumn?` reads the
promise off the name; `Hint.write` keeps it.
-/
import SeedData.Prose.Names
import SeedData.Prose.Places
import SeedData.Text.Blank
import SeedData.Text.Lowercase

namespace SeedData

/-- What a text column is about. -/
inductive Hint where
  | email
  | firstName
  | lastName
  | fullName
  | username
  | phone
  | city
  | country
  | street
  | zipCode
  | company
  | url
  | title
  | body
  deriving DecidableEq, Repr

namespace Hint

/-- The parts of names that give a hint, in the order in which they are looked
for: the hint, names that give it when whole, and names that give it wherever they
stand. -/
def rules : List (Hint × List String × List String) := [
  (email, [], ["email"]),
  (firstName, [], ["first_name", "firstname"]),
  (lastName, [], ["last_name", "lastname", "surname"]),
  (username, ["by", "author"], ["username", "login"]),
  (fullName, ["name"], ["full_name", "fullname", "customer_name"]),
  (phone, [], ["phone", "mobile"]),
  (city, [], ["city"]),
  (country, [], ["country"]),
  (street, [], ["street", "address"]),
  (zipCode, [], ["zip", "postal", "postcode"]),
  (company, [], ["company", "organization", "employer"]),
  (url, [], ["url", "website", "link"]),
  (title, [], ["title", "subject", "headline"]),
  (body, [], ["description", "body", "text", "comment", "content"])]

/-- The hint that the name of a column gives; case does not count. -/
def ofColumn? (column : String) : Option Hint :=
  let name := Text.lowercase column.toList
  (rules.find? fun (_, whole, parts) =>
    whole.any (·.toList = name) || parts.any (fun part => Text.contains part.toList name)).map (·.1)

end Hint

namespace Prose

/-- As many words with spaces between them, and a full stop. -/
def sentence (first last : Nat) : Draw String := do
  let count ← Draw.range first last
  return " ".intercalate (← words.choose.times count) ++ "."

/-- As many sentences, each on a line of its own. -/
def paragraph (first last : Nat) : Draw String := do
  let count ← Draw.range first last
  return "\n".intercalate (← (sentence 4 10).times count)

/-- A sentence for columns about which nothing is known. -/
def filler : Draw String := sentence 3 8

def fullName : Draw String := do
  let first ← firstNames.choose
  return first ++ " " ++ (← lastNames.choose)

def lowerName : Draw String := do
  return String.ofList (Text.lowercase (← firstNames.choose).toList)

/-- A mail address at an example host. -/
def email : Draw String := do
  let user ← lowerName
  return user ++ "@example." ++ (← mailSuffixes.choose)

/-- A name to log in with: a given name, rarely alone or with a number, mostly
with a word. -/
def username : Draw String := do
  let kind ← Draw.byte
  if kind = 0 then lowerName
  else if kind ≤ 2 then
    let word ← words.choose
    return word ++ "." ++ (← lowerName)
  else if kind ≤ 4 then
    let name ← lowerName
    return name ++ toString (← Draw.byte)
  else
    let name ← lowerName
    return name ++ "_" ++ (← words.choose)

/-- The form with its number signs and carets made digits. -/
def fillDigits : List Char → Draw (List Char)
  | [] => return []
  | c :: r => do
    if c = '#' then
      let digit ← Draw.range 0 10
      return Nat.digitChar digit :: (← fillDigits r)
    else if c = '^' then
      let digit ← Draw.range 1 10
      return Nat.digitChar digit :: (← fillDigits r)
    else return c :: (← fillDigits r)

def ofForm (forms : Wordlist) : Draw String := do
  return String.ofList (← fillDigits (← forms.choose).toList)

/-- The name of a city: a person's name with an ending, one in five times with a
beginning. -/
def city : Draw String := do
  let kind ← Draw.range 0 5
  if kind = 0 then
    let front ← cityPrefixes.choose
    let name ← fullName
    return front ++ " " ++ name ++ " " ++ (← citySuffixes.choose)
  else
    let name ← if kind = 1 then firstNames.choose else lastNames.choose
    return name ++ " " ++ (← citySuffixes.choose)

def street : Draw String := do
  let given ← Draw.bool
  let name ← if given then firstNames.choose else lastNames.choose
  return name ++ " " ++ (← streetSuffixes.choose)

/-- The name of a company: that of one founder, or of two. -/
def company : Draw String := do
  let founders ← Draw.below 2
  let first ← lastNames.choose
  let second ← lastNames.choose
  let suffix ← companySuffixes.choose
  return if founders = 0 then first ++ " " ++ suffix else first ++ " and " ++ second ++ " " ++ suffix

def url : Draw String := do
  let host ← words.choose
  return "https://" ++ host ++ "." ++ (← domainSuffixes.choose)

/-- The text without the full stops at its end. -/
def dropStops (s : String) : String :=
  String.ofList (s.toList.reverse.dropWhile (· == '.')).reverse

/-- A sentence without its full stop. -/
def title : Draw String := do return dropStops (← sentence 2 6)

end Prose

/-- A text of the kind that the hint is for. -/
def Hint.write : Hint → Draw String
  | email => Prose.email
  | firstName => Prose.firstNames.choose
  | lastName => Prose.lastNames.choose
  | fullName => Prose.fullName
  | username => Prose.username
  | phone => Prose.ofForm Prose.phoneFormats
  | city => Prose.city
  | country => Prose.countries.choose
  | street => Prose.street
  | zipCode => Prose.ofForm Prose.zipFormats
  | company => Prose.company
  | url => Prose.url
  | title => Prose.title
  | body => Prose.paragraph 1 3

end SeedData
