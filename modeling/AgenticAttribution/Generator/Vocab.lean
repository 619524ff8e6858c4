/-!
# Generator.Vocab — the words of the synthetic catalogue

`internal/generator/vocab.go`.
-/

namespace Generator

structure Category where
  id : String
  types : List String
  modifiers : List String
  units : List String

def categories : List Category :=
  [ { id := "cat_electronics_audio"
      types :=
        ["Wireless Earbuds", "Over-Ear Headphones", "Bluetooth Speaker", "Soundbar", "Studio Monitor",
          "Portable DAC"]
      modifiers :=
        ["Noise Cancelling", "Hi-Res", "Waterproof", "Low Latency", "Open-Back", "Bass Boost"]
      units := ["40mm Driver", "50mm Driver", "30h Battery", "24-Bit", "aptX HD"] },
    { id := "cat_electronics_power"
      types :=
        ["Portable Charger", "Wall Adapter", "Car Charger", "Charging Station", "Power Bank", "Surge Protector"]
      modifiers :=
        ["Fast Charge", "GaN", "Multi-Port", "Foldable", "Magnetic", "PD 3.0"]
      units := ["10000mAh", "20000mAh", "65W", "100W", "140W", "30W"] },
    { id := "cat_computing"
      types :=
        ["Mechanical Keyboard", "Wireless Mouse", "USB-C Hub", "Docking Station", "Monitor Arm", "Laptop Stand"]
      modifiers :=
        ["Hot-Swappable", "Low-Profile", "Ergonomic", "Aluminum", "Dual-Display", "Adjustable"]
      units := ["75%", "TKL", "Full-Size", "8K Polling", "Thunderbolt 4", "4K 120Hz"] },
    { id := "cat_home_kitchen"
      types :=
        ["Espresso Machine", "Pour-Over Kettle", "Burr Grinder", "Cast Iron Skillet", "Chef Knife", "Stand Mixer"]
      modifiers :=
        ["Variable Temperature", "Conical", "Pre-Seasoned", "Hand-Forged", "Dual Boiler", "Tilt-Head"]
      units := ["1.7L", "58mm", "8-Inch", "10-Inch", "5-Quart", "40 Grind Settings"] },
    { id := "cat_outdoor"
      types :=
        ["Trail Running Shoes", "Insulated Jacket", "Hiking Daypack", "Trekking Poles", "Headlamp", "Sleeping Pad"]
      modifiers :=
        ["Gore-Tex", "Packable", "Rechargeable", "Carbon Fiber", "Ripstop", "Ultralight"]
      units := ["20L", "28L", "800-Fill", "R-Value 4.2", "400 Lumen", "6mm Drop"] },
    { id := "cat_pet"
      types :=
        ["Dog Paw Mat", "Orthopedic Dog Bed", "Slow Feeder Bowl", "Retractable Leash", "Pet Stain Remover",
          "Grooming Brush"]
      modifiers :=
        ["Machine Washable", "Non-Slip", "Memory Foam", "Enzyme-Based", "Self-Cleaning", "Quick-Dry"]
      units := ["30x20 in", "36x27 in", "Large", "Medium", "32 oz", "1 Gallon"] },
    { id := "cat_office"
      types :=
        ["Standing Desk", "Task Chair", "Desk Lamp", "Cable Tray", "Whiteboard", "Footrest"]
      modifiers :=
        ["Electric", "Lumbar Support", "Dimmable", "Under-Desk", "Magnetic", "Contoured"]
      units := ["48-Inch", "60-Inch", "Dual Motor", "5000K", "3-Stage"] },
    { id := "cat_fitness"
      types :=
        ["Adjustable Dumbbells", "Resistance Bands", "Yoga Mat", "Kettlebell", "Foam Roller", "Jump Rope"]
      modifiers :=
        ["Quick-Adjust", "Latex-Free", "Extra Thick", "Powder-Coated", "High-Density", "Weighted"]
      units := ["5-52 lb", "6mm", "8mm", "35 lb", "18-Inch", "Set of 5"] } ]

theorem categories_stocked :
    ∀ cat ∈ categories, cat.types ≠ [] ∧ cat.modifiers ≠ [] ∧ cat.units ≠ [] := by
  decide

def brands : List String :=
  ["Northgate", "Verity", "Ridgeline", "Halcyon", "Kestrel", "Bramble", "Ironwood", "Solstice", "Meridian",
    "Larkspur", "Onyx Field", "Copperline", "Thornbury", "Vantage", "Bluecrest", "Perigee", "Ashford", "Windrow",
    "Quarrystone", "Fernhill", "Alder & Pine", "Stonebridge", "Highmark", "Cobalt Row"]

def colors : List String :=
  ["Black", "Slate", "Graphite", "Ivory", "Sand", "Navy", "Forest", "Charcoal", "Sage", "Rust", "Bone", "Midnight"]

def merchantPrefixes : List String :=
  ["Summit", "Harbor", "Meadow", "Crossroads", "Beacon", "Lantern", "Foundry", "Junction", "Wildwood", "Anchor",
    "Grove", "Trellis"]

def merchantSuffixes : List String :=
  ["Supply Co", "Outfitters", "Mercantile", "Trading Post", "Goods", "Direct", "Marketplace", "Depot", "Emporium",
    "Provisions"]

def publisherNames : List String :=
  ["Gear Digest", "The Honest Review", "Everyday Carry Weekly", "Trailhead Notes", "Kitchen Bench",
    "Desk Setup Daily", "Paws & Claws Reviews", "Signal Boost", "The Shortlist", "Field Tested", "Buyer's Compass",
    "Considered"]

/-- With the brand, and the title without it. -/
def titleDriftTemplates : List String :=
  ["%s %s", "%s - %s", "%s | %s", "%s %s - Brand New", "%s %s (Free Ship)", "NEW %s %s"]

end Generator
